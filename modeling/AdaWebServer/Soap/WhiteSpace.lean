import AdaWebServer.Soap.Spaced

/-!
# White space that is seen

White space is not seen in a parameter unless it stands in front of a first child that tells the
kind of its element, behind the first field or item, or where a value is read.  A parameter is
opened before its children are parsed, and white space that is not seen leaves what is opened as it
was.
-/

namespace AdaWebServer
namespace Soap

open Http2 (Text text toLower)

variable {V : Type}

/-! ## White space that is not seen -/

/-- What the objects of the children of an element are put together to. -/
inductive Shape where
  | record (tName : Text)
  | array (typeName : Text) (aType : TypeState)

namespace Shape

/-- `A_State` for the children. -/
def itemState : Shape → TypeState
  | record _ => .void
  | array _ aType => aType

def object (name : Text) (objects : List (Object V)) (ns : Namespaces) : Shape → Object V
  | record tName =>
      .record objects name (recordTypeName name (noNS tName))
        (ns.getNamespaceObject (nameSpaceOf tName))
  | array typeName _ => .array objects name typeName

end Shape

section Openings

variable (convert : TypeState → Text → Option V)

/-- Neither the schema nor an attribute nor an array around it tells the kind of an element. -/
structure Untold (lqName : Text) (ref : Node) (state : State V) : Prop where
  noFault : state.wrapperName ≠ text "Fault"
  noAttribute : ¬ state.schema.isA (lqName ++ text "@is_a") (text "@attribute")
  noArray : ¬ isArray lqName ref state
  noRecord : ¬ state.schema.isA (lqName ++ text "@is_a") (text "@record")
  noType : xsiType ref state = none ∧ paramType lqName ref state = [] ∧
    (state.aState = .void ∨ state.aState = .undefined)
  noNull : ¬ ((getNamedItem ref.attributes (state.xsiName (text "null"))).isSome ∨
    (getNamedItem ref.attributes (state.xsiName (text "nil"))).isSome)

/-- The first child is a text. -/
def FirstText (node : Node) : Prop := ∃ first, node.children.head? = some first ∧ first.IsText

/-- No text is put in front of the first child, unless it is one itself. -/
def SameFirst (node kept : Node) : Prop := FirstText kept → FirstText node

/-- The texts that the handler of a type reads have the same value. -/
def SameRead (type : TypeState) (name typeName : Text) (node kept : Node) : Prop :=
  handler convert type name typeName (readText kept type) =
    handler convert type name typeName (readText node type)

/-- Where the value of an element is read, no text changes it. -/
def SameValue (kind : Kind) (name qName : Text) (ref again : Place) (state : State V) : Prop :=
  match kind with
  | .fault => SameRead convert .string name (text "xsd:string") ref.node again.node
  | .attributed =>
      ∀ field type, ref.getRef = some field → ref.node.children ≠ [] →
        state.toType (attributedType (qualified qName name) field.node state) = some type →
        SameRead convert type (text "attribute_value")
          (attributedType (qualified qName name) field.node state) ref.node again.node
  | .simple type typeName _ => SameRead convert type name typeName ref.node again.node
  | .enumeration _ =>
      (firstChildIfExists again.node).nodeValue = (firstChildIfExists ref.node).nodeValue
  | .untyped => textNodeValue again.node = textNodeValue ref.node
  | _ => True

/-- A parameter leads to the same element as without white space, and no text is put in front of a
first child that tells what kind of element it is. -/
structure SameKind (qName : Text) (state : State V) (place kept ref again : Place) (kind : Kind) :
    Prop where
  spaced : SpacedPlace place kept
  refers : place.getRef = some ref
  refers' : kept.getRef = some again
  alike : SpacedPlace ref again
  onward : Option.Rel SpacedPlace ref.getRef again.getRef
  told : paramKind (qualified qName place.node.localName) ref.node (state.declaring ref.node) =
    some kind
  first : Untold (qualified qName place.node.localName) ref.node (state.declaring ref.node) →
    SameFirst ref.node again.node

/-- White space that is not seen in an element that is read as one value.  The state behind it is
given. -/
inductive ValueUnseen (qName : Text) (state : State V) (place kept : Place) : State V → Prop
  | single {ref again : Place} {kind : Kind} (same : SameKind qName state place kept ref again kind)
      (no_array : kind ≠ .array) (no_record : kind ≠ .record)
      (value : SameValue convert kind place.node.localName qName ref again
        (state.declaring ref.node)) :
      ValueUnseen qName state place kept (state.declaring ref.node)
  /-- An enumeration that is referred to. -/
  | enumeration {ref again field other : Place}
    (same : SameKind qName state place kept ref again .record)
      (leads : ref.getRef = some field) (leads' : again.getRef = some other)
      (enumerated : isEnumeration place.node.localName ref.node field.node = some true)
      (value : (firstChildIfExists other.node).nodeValue =
        (firstChildIfExists field.node).nodeValue) :
      ValueUnseen qName state place kept (state.declaring ref.node)

/-- White space that is not seen in front of the fields of a record or the items of an array. -/
inductive PartsUnseen (qName : Text) (state : State V) (place kept : Place) :
    Shape → State V → Place → Place → Prop
  /-- A record that is referred to by another name is one because its first child is no text. -/
  | record {ref again field other : Place}
    (same : SameKind qName state place kept ref again .record)
      (leads : ref.getRef = some field) (leads' : again.getRef = some other)
      (entered : isEnumeration place.node.localName ref.node field.node = some false)
      (first : place.node.localName ≠ ref.node.localName → SameFirst field.node other.node) :
      PartsUnseen qName state place kept
        (.record (recordType place.node.localName field.node qName (state.declaring ref.node)))
        (state.declaring ref.node) field other
  | array {ref again : Place} {typeName : Text} {aType : TypeState}
      (same : SameKind qName state place kept ref again .array)
      (named : arrayTypeName (qualified qName place.node.localName) ref.node
        ((state.declaring ref.node).declaring ref.node) = some typeName)
      (typed : ((state.declaring ref.node).declaring ref.node).toType typeName = some aType) :
      PartsUnseen qName state place kept (.array typeName aType)
        ((state.declaring ref.node).declaring ref.node) ref again

/-- White space among parameters that is not seen.  A record or array has as many nodes as without
it from its first field or item on, so that nothing stands behind this one. -/
inductive Unseen : Text → State V → List Place → List Place → State V → Prop
  | nil (qName : Text) (state : State V) : Unseen qName state [] [] state
  | value {qName : Text} {state declared after : State V} {place kept : Place}
    {places others : List Place} (unseen : ValueUnseen convert qName state place kept declared)
      (rest : Unseen qName declared places others after) :
      Unseen qName state (place :: places) (kept :: others) after
  | parts {qName : Text} {state declared within after : State V} {place kept field other : Place}
      {places others : List Place} {shape : Shape}
      (unseen : PartsUnseen qName state place kept shape declared field other)
      (inside : Unseen (qualified qName place.node.localName)
        { declared with aState := shape.itemState } field.fields other.fields within)
      (rest : Unseen qName { within with aState := declared.aState } places others after) :
      Unseen qName state (place :: places) (kept :: others) after

/-! ## Opening a parameter -/

/-- What `Parse_Param` finds before it parses children. -/
inductive Opening (V : Type) where
  | single (object : Object V)
  | parts (shape : Shape) (place : Place)

/-- The opening of an element of a kind. -/
def opened (kind : Kind) (name : Text) (ref : Place) (qName : Text) (state : State V) :
    Option (Opening V × State V) :=
  match kind with
  | .array => do
      let inner := state.declaring ref.node
      let typeName ← arrayTypeName (qualified qName name) ref.node inner
      let aType ← inner.toType typeName
      return (.parts (.array typeName aType) ref, inner)
  | .record => do
      let field ← ref.getRef
      let tName := recordType name field.node qName state
      if ← isEnumeration name ref.node field.node then
        return (.single (.enumeration (firstChildIfExists field.node).nodeValue (noNS tName) name),
          state)
      return (.parts (.record tName) field, state)
  | kind =>
      (parseSingle convert kind name ref qName state).map fun object => (.single object, state)

/-- The opening of a parameter. -/
def opening (qName : Text) (place : Place) (state : State V) : Option (Opening V × State V) := do
  let name := place.node.localName
  let ref ← place.getRef
  let state := state.declaring ref.node
  let kind ← paramKind (qualified qName name) ref.node state
  opened convert kind name ref qName state

/-- The rest of `Parse_Param`. -/
def closed (depth : Nat) (qName name : Text) : Opening V × State V → Option (Object V × State V)
  | (.single object, state) => some (object, state)
  | (.parts shape place, state) => do
      let (objects, after) ← parseAll (parseParam convert depth (qualified qName name)) place.fields
        { state with aState := shape.itemState }
      return (shape.object name objects after.ns, { after with aState := state.aState })

variable {convert}

theorem parseArray_eq (depth : Nat) (name qName : Text) (ref : Place) (state : State V) :
    parseArray (parseParam convert depth) name ref qName state =
      opened convert .array name ref qName state >>= closed convert depth qName name := by
  rw [parseArray, opened]
  cases arrayTypeName (qualified qName name) ref.node (state.declaring ref.node) with
  | none => rfl
  | some typeName =>
      simp only [Option.bind_eq_bind, Option.bind_some]
      cases (state.declaring ref.node).toType typeName with
      | none => rfl
      | some aType => rfl

theorem parseRecord_eq (depth : Nat) (name qName : Text) (ref : Place) (state : State V) :
    parseRecord (parseParam convert depth) name ref qName state =
      opened convert .record name ref qName state >>= closed convert depth qName name := by
  rw [parseRecord, opened]
  cases ref.getRef with
  | none => rfl
  | some field =>
      simp only [Option.bind_eq_bind, Option.bind_some]
      cases isEnumeration name ref.node field.node with
      | none => rfl
      | some enumerated =>
          cases enumerated with
          | true => rfl
          | false => rfl

theorem parseParam_succ (depth : Nat) (qName : Text) (place : Place) (state : State V) :
    parseParam convert (depth + 1) qName place state =
      opening convert qName place state >>= closed convert depth qName place.node.localName := by
  rw [parseParam, opening]
  cases place.getRef with
  | none => rfl
  | some ref =>
      simp only [Option.bind_eq_bind, Option.bind_some]
      generalize state.declaring ref.node = declared
      cases paramKind (qualified qName place.node.localName) ref.node declared with
      | none => rfl
      | some kind =>
          have single : ∀ parsed : Option (Object V),
              parsed.map (·, declared) =
                (parsed.map fun object => (Opening.single object, declared)) >>=
                closed convert depth qName place.node.localName := by
            intro parsed
            cases parsed <;> rfl
          simp only [Option.bind_some]
          cases kind with
          | array => exact parseArray_eq depth _ qName ref declared
          | record => exact parseRecord_eq depth _ qName ref declared
          | _ => exact single _

theorem opening_cases {qName : Text} {place : Place} {state after : State V} {found : Opening V}
    (opens : opening convert qName place state = some (found, after)) :
    ∃ ref kind, place.getRef = some ref ∧
      paramKind (qualified qName place.node.localName) ref.node (state.declaring ref.node) =
        some kind ∧
      opened convert kind place.node.localName ref qName (state.declaring ref.node) =
        some (found, after) := by
  obtain ⟨ref, referred, opens⟩ := Option.bind_eq_some_iff.1 opens
  obtain ⟨kind, told, opens⟩ := Option.bind_eq_some_iff.1 opens
  exact ⟨ref, kind, referred, told, opens⟩

section Kinds

variable {name qName : Text} {ref : Place} {state after : State V} {found : Opening V}

theorem opened_array (opens : opened convert .array name ref qName state = some (found, after)) :
    ∃ typeName aType,
      arrayTypeName (qualified qName name) ref.node (state.declaring ref.node) = some typeName ∧
      (state.declaring ref.node).toType typeName = some aType ∧
      found = .parts (.array typeName aType) ref ∧ after = state.declaring ref.node := by
  obtain ⟨typeName, named, opens⟩ := Option.bind_eq_some_iff.1 opens
  obtain ⟨aType, typed, opens⟩ := Option.bind_eq_some_iff.1 opens
  cases opens
  exact ⟨typeName, aType, named, typed, rfl, rfl⟩

theorem opened_record_eq {field : Place} (leads : ref.getRef = some field) :
    opened convert .record name ref qName state =
      (isEnumeration name ref.node field.node).bind fun enumerated =>
        if enumerated then
          some (.single (.enumeration (firstChildIfExists field.node).nodeValue
            (noNS (recordType name field.node qName state)) name), state)
        else some (.parts (.record (recordType name field.node qName state)) field, state) := by
  rw [opened, leads]
  rfl

theorem opened_record (opens : opened convert .record name ref qName state = some (found, after)) :
    after = state ∧ ∃ field, ref.getRef = some field ∧
      (isEnumeration name ref.node field.node = some true ∧
          found = .single (.enumeration (firstChildIfExists field.node).nodeValue
            (noNS (recordType name field.node qName state)) name) ∨
        isEnumeration name ref.node field.node = some false ∧
          found = .parts (.record (recordType name field.node qName state)) field) := by
  obtain ⟨field, referred, opens⟩ := Option.bind_eq_some_iff.1 opens
  obtain ⟨enumerated, tested, opens⟩ := Option.bind_eq_some_iff.1 opens
  cases enumerated with
  | true =>
      cases opens
      exact ⟨rfl, field, referred, .inl ⟨tested, rfl⟩⟩
  | false =>
      cases opens
      exact ⟨rfl, field, referred, .inr ⟨tested, rfl⟩⟩

theorem opened_eq_map {kind : Kind} (no_array : kind ≠ .array) (no_record : kind ≠ .record) :
    opened convert kind name ref qName state =
      (parseSingle convert kind name ref qName state).map fun object =>
        (.single object, state) := by
  cases kind with
  | array => exact absurd rfl no_array
  | record => exact absurd rfl no_record
  | _ => rfl

theorem opened_single {kind : Kind} (no_array : kind ≠ .array) (no_record : kind ≠ .record)
    (opens : opened convert kind name ref qName state = some (found, after)) :
    after = state ∧ ∃ object, parseSingle convert kind name ref qName state = some object ∧
      found = .single object := by
  rw [opened_eq_map no_array no_record] at opens
  obtain ⟨object, made, pair⟩ := Option.map_eq_some_iff.1 opens
  cases pair
  exact ⟨rfl, object, made, rfl⟩

end Kinds

/-! ## Kinds -/

section Spaced

variable {lqName name qName : Text} {node kept : Node} {state : State V}

theorem getItemName_spaced (spaced : Spaced node kept) : getItemName kept = getItemName node := by
  rw [getItemName, getItemName]
  have items := spaced.firstChild
  revert items
  generalize (fromFirstChild node).head? = first
  generalize (fromFirstChild kept).head? = second
  rintro (alike | _)
  · exact alike.localName
  · rfl

theorem arrayTypeName_spaced (spaced : Spaced node kept) :
    arrayTypeName lqName kept state = arrayTypeName lqName node state := by
  rw [arrayTypeName, arrayTypeName, getItemName_spaced spaced, spaced.attributes]

theorem recordType_spaced (spaced : Spaced node kept) :
    recordType name kept qName state = recordType name node qName state := by
  rw [recordType, recordType, spaced.getAttrValue]

theorem attributedType_spaced (spaced : Spaced node kept) :
    attributedType lqName kept state = attributedType lqName node state := by
  rw [attributedType, attributedType, spaced.getAttrValue]

theorem declaring_spaced (spaced : Spaced node kept) :
    state.declaring kept = state.declaring node := by
  rw [State.declaring, State.declaring, spaced.parseNamespaces]

theorem isArray_spaced (spaced : Spaced node kept) :
    isArray lqName kept state = isArray lqName node state := by
  rw [isArray, isArray, spaced.getAttrValue, spaced.attributes]

theorem xsiType_spaced (spaced : Spaced node kept) : xsiType kept state = xsiType node state := by
  rw [xsiType, xsiType, spaced.attributes]

theorem paramType_spaced (spaced : Spaced node kept) :
    paramType lqName kept state = paramType lqName node state := by
  rw [paramType, paramType, spaced.getAttrValue]

theorem typedKind_spaced (spaced : Spaced node kept) (xsd : Text) :
    typedKind lqName kept state xsd = typedKind lqName node state xsd := by
  rw [typedKind, typedKind, isNil, isNil, spaced.getAttrValue]

theorem SameFirst.nodeTypes (same : SameFirst node kept) (spaced : Spaced node kept) :
    kept.children.head?.map Node.nodeType = node.children.head?.map Node.nodeType := by
  by_cases isText : FirstText kept
  · obtain ⟨first, head, first_text⟩ := same isText
    obtain ⟨other, other_head, other_text⟩ := isText
    rw [head, other_head, Option.map_some, Option.map_some]
    exact congrArg some (other_text.trans first_text.symm)
  · obtain heads | fresh := spaced.children.head?
    · revert heads
      generalize node.children.head? = first
      generalize kept.children.head? = second
      rintro (alike | _)
      · exact congrArg some alike.nodeType
      · rfl
    · exact absurd fresh isText

theorem kindOfFirst_congr {first second : Option Node} (typed : Bool)
    (types : second.map Node.nodeType = first.map Node.nodeType) :
    kindOfFirst second typed = kindOfFirst first typed := by
  cases first with
  | none =>
      rw [Option.map_eq_none_iff.1 types]
  | some first =>
      obtain ⟨other, rfl, type⟩ := Option.map_eq_some_iff.1 types
      rw [kindOfFirst, kindOfFirst, type]

theorem isEnumeration_spaced {ref again field other : Node} (alike : Spaced ref again)
    (spaced : Spaced field other) (same : name ≠ ref.localName → SameFirst field other) :
    isEnumeration name again other = isEnumeration name ref field := by
  rw [isEnumeration, isEnumeration, alike.localName]
  refine ite_congr rfl (fun _ => rfl) fun renamed => ?_
  have types := congrArg (Option.map fun type => decide (type = NodeType.text))
    ((same renamed).nodeTypes spaced)
  rwa [Option.map_map, Option.map_map] at types

theorem firstText_of_isEnumeration {ref field : Node}
    (enumerated : isEnumeration name ref field = some true) :
    FirstText field := by
  rw [isEnumeration] at enumerated
  split at enumerated
  · cases enumerated
  · obtain ⟨first, head, isText⟩ := Option.map_eq_some_iff.1 enumerated
    exact ⟨first, head, by simpa [Node.IsText] using isText⟩

theorem Untold.spaced (untold : Untold lqName node state) (spaced : Spaced node kept) :
    Untold lqName kept state where
  noFault := untold.noFault
  noAttribute := untold.noAttribute
  noArray := by
    rw [isArray_spaced spaced]
    exact untold.noArray
  noRecord := untold.noRecord
  noType := by
    rw [xsiType_spaced spaced, paramType_spaced spaced]
    exact untold.noType
  noNull := by
    rw [spaced.attributes]
    exact untold.noNull

/-- Where nothing else tells the kind of an element, its first child does. -/
theorem Untold.paramKind_eq (untold : Untold lqName node state) :
    paramKind lqName node state =
      kindOfFirst node.children.head? (getNamedItem node.attributes (text "type")).isSome := by
  rw [paramKind, if_neg untold.noFault, if_neg untold.noAttribute, if_neg untold.noArray,
    if_neg untold.noRecord, if_pos untold.noType, untypedKind, if_neg untold.noNull]

theorem paramKind_spaced (spaced : Spaced node kept)
    (same : Untold lqName node state → SameFirst node kept) :
    paramKind lqName kept state = paramKind lqName node state := by
  by_cases untold : Untold lqName node state
  · rw [untold.paramKind_eq, (untold.spaced spaced).paramKind_eq, spaced.attributes]
    exact kindOfFirst_congr _ ((same untold).nodeTypes spaced)
  · rw [paramKind, paramKind, isArray_spaced spaced, xsiType_spaced spaced, paramType_spaced spaced]
    refine ite_congr rfl (fun _ => rfl) fun noFault => ?_
    refine ite_congr rfl (fun _ => rfl) fun noAttribute => ?_
    refine ite_congr rfl (fun _ => rfl) fun noArray => ?_
    refine ite_congr rfl (fun _ => rfl) fun noRecord => ?_
    refine ite_congr rfl (fun noType => ?_) fun _ => typedKind_spaced spaced _
    rw [untypedKind, untypedKind, spaced.attributes]
    refine ite_congr rfl (fun _ => rfl) fun noNull => ?_
    exact absurd ⟨noFault, noAttribute, noArray, noRecord, noType, noNull⟩ untold

/-- With a text in front of a first child that tells its kind, an element is no longer a record. -/
theorem Untold.retold (untold : Untold lqName node state) (spaced : Spaced node kept)
    {kind other : Kind} (told : paramKind lqName node state = some kind)
    (retold : paramKind lqName kept state = some other) :
    SameFirst node kept ∨ kind = .record ∧ ¬ FirstText node ∧ other ≠ .array ∧ other ≠ .record := by
  by_cases same : SameFirst node kept
  · exact .inl same
  obtain ⟨front, shown⟩ := Classical.not_imp.1 same
  refine .inr ⟨?_, shown, ?_⟩
  · rw [untold.paramKind_eq] at told
    cases head : node.children.head? with
    | none =>
        obtain ⟨item, first, _⟩ := front
        rw [spaced.children_eq_nil.2 (List.head?_eq_none_iff.1 head)] at first
        cases first
    | some first =>
        rw [head, kindOfFirst,
          if_neg fun isText : first.nodeType = .text => shown ⟨first, head, isText⟩] at told
        exact (Option.some.inj told).symm
  · obtain ⟨item, head, isText⟩ := front
    rw [(untold.spaced spaced).paramKind_eq, head, kindOfFirst,
      if_pos (show item.nodeType = .text from isText)] at retold
    obtain rfl := Option.some.inj retold
    constructor
    · cases (getNamedItem kept.attributes (text "type")).isSome <;> simp
    · cases (getNamedItem kept.attributes (text "type")).isSome <;> simp

end Spaced

/-! ## The same openings -/

section Same

variable {name qName : Text} {state after : State V} {place kept ref again field other : Place}
  {kind : Kind} {shape : Shape}

theorem SameKind.opening_eq (same : SameKind qName state place kept ref again kind) :
    opening convert qName place state =
        opened convert kind place.node.localName ref qName (state.declaring ref.node) ∧
      opening convert qName kept state =
        opened convert kind place.node.localName again qName (state.declaring ref.node) := by
  constructor
  · rw [opening, same.refers]
    simp only [Option.bind_eq_bind, Option.bind_some]
    rw [same.told]
    rfl
  · rw [opening, same.refers']
    simp only [Option.bind_eq_bind, Option.bind_some]
    rw [same.spaced.node.localName, declaring_spaced same.alike.node,
      paramKind_spaced same.alike.node same.first, same.told]
    rfl

/-- Where no text changes the value that is read, the same object is made. -/
theorem SameValue.parseSingle_eq (alike : SpacedPlace ref again)
    (onward : Option.Rel SpacedPlace ref.getRef again.getRef)
    (same : SameValue convert kind name qName ref again state) :
    parseSingle convert kind name again qName state =
      parseSingle convert kind name ref qName state := by
  cases kind with
  | fault => exact same
  | attributed =>
      rw [parseSingle, parseSingle, parseAttribute, parseAttribute, alike.node.attributes]
      rw [SameValue] at same
      revert onward same
      generalize ref.getRef = first
      generalize again.getRef = second
      rintro (within | _) same
      · simp only [Option.bind_eq_bind, Option.bind_some]
        rename_i field other
        rw [attributedType_spaced within.node]
        have value :
            attributeValue convert again.node
                (attributedType (qualified qName name) field.node state) state =
              attributeValue convert ref.node
                (attributedType (qualified qName name) field.node state) state := by
          rw [attributeValue, attributeValue]
          refine ite_congr (propext alike.node.children_eq_nil) (fun _ => rfl) fun children => ?_
          cases typed : state.toType (attributedType (qualified qName name) field.node state) with
          | none => rfl
          | some type =>
              simp only [Option.bind_eq_bind, Option.bind_some]
              rw [show handler convert type _ _ (readText again.node type) = _ from
                same field type rfl children typed]
        rw [value]
      · rfl
  | array => rfl
  | record => rfl
  | null => rfl
  | enumeration typeName =>
      rw [parseSingle, parseSingle, parseEnumeration, parseEnumeration, alike.node.getAttrValue]
      rw [show (firstChildIfExists again.node).nodeValue = _ from same]
  | empty => rfl
  | untyped =>
      rw [parseSingle, parseSingle]
      rw [show textNodeValue again.node = _ from same]
  | simple type typeName ns => exact congrArg (Option.map (Object.withNS ns)) same

theorem ValueUnseen.opening_eq (unseen : ValueUnseen convert qName state place kept after) :
    opening convert qName kept state = opening convert qName place state ∧
      ∀ found last, opening convert qName place state = some (found, last) →
        last = after ∧ ∃ object, found = .single object := by
  cases unseen with
  | single same no_array no_record value =>
      rw [same.opening_eq.1, same.opening_eq.2]
      refine ⟨?_, fun found last opens => ?_⟩
      · rw [opened_eq_map no_array no_record, opened_eq_map no_array no_record,
          value.parseSingle_eq same.alike same.onward]
      · obtain ⟨rfl, object, _, rfl⟩ := opened_single no_array no_record opens
        exact ⟨rfl, object, rfl⟩
  | @enumeration ref again field other same leads leads' enumerated value =>
      rw [same.opening_eq.1, same.opening_eq.2]
      have fields := same.onward
      rw [leads, leads'] at fields
      obtain ⟨within⟩ := fields
      have reenumerated : isEnumeration place.node.localName again.node other.node = some true := by
        rw [isEnumeration_spaced same.alike.node within.node fun _ _ =>
          firstText_of_isEnumeration enumerated]
        exact enumerated
      rw [opened_record_eq leads, opened_record_eq leads', enumerated, reenumerated]
      simp only [Option.bind_some, if_true]
      rw [recordType_spaced within.node, value]
      refine ⟨rfl, fun found last opens => ?_⟩
      cases opens
      exact ⟨rfl, _, rfl⟩

theorem PartsUnseen.opening_eq (unseen : PartsUnseen qName state place kept shape
    after field other) :
    opening convert qName place state = some (.parts shape field, after) ∧
      opening convert qName kept state = some (.parts shape other, after) ∧
      kept.node.localName = place.node.localName := by
  cases unseen with
  | @record ref again field other same leads leads' entered first =>
      rw [same.opening_eq.1, same.opening_eq.2]
      have fields := same.onward
      rw [leads, leads'] at fields
      obtain ⟨within⟩ := fields
      have reentered : isEnumeration place.node.localName again.node other.node = some false := by
        rw [isEnumeration_spaced same.alike.node within.node first]
        exact entered
      rw [opened_record_eq leads, opened_record_eq leads', entered, reentered,
        recordType_spaced within.node]
      exact ⟨rfl, rfl, same.spaced.node.localName⟩
  | array same named typed =>
      rw [same.opening_eq.1, same.opening_eq.2]
      refine ⟨?_, ?_, same.spaced.node.localName⟩
      · rw [opened, named]
        simp only [Option.bind_eq_bind, Option.bind_some]
        rw [typed]
        rfl
      · rw [opened, declaring_spaced same.alike.node, arrayTypeName_spaced same.alike.node, named]
        simp only [Option.bind_eq_bind, Option.bind_some]
        rw [typed]
        rfl

end Same

/-! ## The same objects with white space -/

section Sequences

variable {qName : Text} {state after : State V} {places others : List Place}

theorem parseAll_cons (parse : Place → State V → Option (Object V × State V)) (place : Place)
    (places : List Place) (state : State V) :
    parseAll parse (place :: places) state = (parse place state).bind fun first =>
      (parseAll parse places first.2).map fun rest => (first.1 :: rest.1, rest.2) := by
  rw [parseAll]
  cases parse place state with
  | none => rfl
  | some first =>
      simp only [Option.bind_eq_bind, Option.bind_some]
      cases parseAll parse places first.2 <;> rfl

theorem length_parseAll {parse : Place → State V → Option (Object V × State V)}
    {objects : List (Object V)} (parsed : parseAll parse places state = some (objects, after)) :
    objects.length = places.length := by
  induction places generalizing state objects with
  | nil =>
      cases parsed
      rfl
  | cons place places ih =>
      rw [parseAll_cons] at parsed
      obtain ⟨first, _, parsed⟩ := Option.bind_eq_some_iff.1 parsed
      obtain ⟨rest, later, pair⟩ := Option.map_eq_some_iff.1 parsed
      cases pair
      exact congrArg (· + 1) (ih later)

/-- Where the white space is not seen, the same objects are parsed. -/
theorem Unseen.parseAll_eq (unseen : Unseen convert qName state places others after) (depth : Nat) :
    parseAll (parseParam convert depth qName) others state =
      parseAll (parseParam convert depth qName) places state ∧
    ∀ objects last, parseAll (parseParam convert depth qName) places state = some (objects, last) →
      last = after := by
  induction unseen generalizing depth with
  | nil qName state =>
      refine ⟨rfl, fun objects last parsed => ?_⟩
      cases parsed
      rfl
  | @value qName state declared after place kept places others unseen _ ih =>
      rw [parseAll_cons, parseAll_cons]
      cases depth with
      | zero => exact ⟨rfl, by rintro _ _ ⟨⟩⟩
      | succ depth =>
          obtain ⟨same, shown⟩ := unseen.opening_eq
          rw [parseParam_succ, parseParam_succ, same]
          cases opens : opening convert qName place state with
          | none => exact ⟨rfl, by rintro _ _ ⟨⟩⟩
          | some opened =>
              obtain ⟨found, last⟩ := opened
              obtain ⟨rfl, object, rfl⟩ := shown found last opens
              simp only [Option.bind_eq_bind, Option.bind_some, closed]
              obtain ⟨equal, last_eq⟩ := ih (depth + 1)
              rw [equal]
              refine ⟨rfl, fun objects last parsed => ?_⟩
              obtain ⟨rest, later, pair⟩ := Option.map_eq_some_iff.1 parsed
              cases pair
              exact last_eq rest.1 rest.2 later
  | parts unseen _ _ inside_ih rest_ih =>
      rw [parseAll_cons, parseAll_cons]
      cases depth with
      | zero => exact ⟨rfl, by rintro _ _ ⟨⟩⟩
      | succ depth =>
          obtain ⟨opens, same, name⟩ := unseen.opening_eq
          rw [parseParam_succ, parseParam_succ, opens, same, name]
          simp only [Option.bind_eq_bind, Option.bind_some, closed]
          obtain ⟨equal, within_eq⟩ := inside_ih depth
          rw [equal]
          cases found : parseAll (parseParam convert depth _) _ _ with
          | none => exact ⟨rfl, by rintro _ _ ⟨⟩⟩
          | some inside =>
              obtain ⟨objects, last⟩ := inside
              obtain rfl := within_eq objects last found
              simp only [Option.bind_some, Option.pure_def]
              obtain ⟨others_eq, last_eq⟩ := rest_ih (depth + 1)
              rw [others_eq]
              refine ⟨rfl, fun objects last parsed => ?_⟩
              obtain ⟨rest, later, pair⟩ := Option.map_eq_some_iff.1 parsed
              cases pair
              exact last_eq rest.1 rest.2 later

/-! ## The same objects -/

/-- Records and arrays. -/
def Object.IsComposite : Object V → Prop
  | .record .. => True
  | .array .. => True
  | _ => False

theorem Shape.isComposite (shape : Shape) (name : Text) (objects : List (Object V))
    (ns : Namespaces) :
    (shape.object name objects ns).IsComposite := by
  cases shape <;> exact trivial

theorem handler_simple {type : TypeState} {name typeName read : Text} {object : Object V}
    (made : handler convert type name typeName read = some object) :
    ∃ own value shown, object = .simple own value name shown .none := by
  rw [handler.eq_def] at made
  split at made
  · cases made
  · cases made
  · cases made
  all_goals
    obtain ⟨value, _, rfl⟩ := Option.map_eq_some_iff.1 made
    exact ⟨_, value, _, rfl⟩

theorem parseSingle_not_composite {kind : Kind} {name qName : Text} {ref : Place}
    {object : Object V} (parsed : parseSingle convert kind name ref qName state = some object) :
      ¬ object.IsComposite := by
  cases kind with
  | fault =>
      have made : handler convert .string name _ _ = some object := parsed
      obtain ⟨own, value, shown, rfl⟩ := handler_simple made
      exact not_false
  | attributed =>
      obtain ⟨field, _, entered⟩ := Option.bind_eq_some_iff.1 parsed
      obtain ⟨value, _, valued⟩ := Option.bind_eq_some_iff.1 entered
      obtain ⟨fields, _, made⟩ := Option.bind_eq_some_iff.1 valued
      cases made
      exact not_false
  | array => cases parsed
  | record => cases parsed
  | null => cases parsed; exact not_false
  | enumeration => cases parsed; exact not_false
  | empty => cases parsed; exact not_false
  | untyped => cases parsed; exact not_false
  | simple =>
      obtain ⟨plain, made, rfl⟩ := Option.map_eq_some_iff.1 parsed
      obtain ⟨own, value, shown, rfl⟩ := handler_simple made
      exact not_false

theorem withNS_simple {ns : NameSpace} {own type : TypeState} {value again : V}
    {name typeName other shown : Text}
    (same : (Object.simple own value name typeName .none).withNS ns =
      (Object.simple type again other shown .none).withNS ns) :
    Object.simple own value name typeName .none = .simple type again other shown .none := by
  injection same with first second third fourth
  rw [first, second, third, fourth]

/-- The value is read from the same text where the objects are the same. -/
theorem SameValue.of_parseSingle {kind : Kind} {name qName : Text} {ref again : Place}
    {object : Object V}
    (alike : SpacedPlace ref again) (onward : Option.Rel SpacedPlace ref.getRef again.getRef)
    (parsed : parseSingle convert kind name ref qName state = some object)
    (reparsed : parseSingle convert kind name again qName state = some object) :
    SameValue convert kind name qName ref again state := by
  cases kind with
  | fault => exact Eq.trans reparsed parsed.symm
  | attributed =>
      intro field type leads children typed
      rw [parseSingle, parseAttribute, leads] at parsed
      rw [parseSingle, parseAttribute, alike.node.attributes] at reparsed
      rw [leads] at onward
      generalize again.getRef = second at onward reparsed
      obtain ⟨within⟩ := onward
      simp only [Option.bind_eq_bind, Option.bind_some, attributedType_spaced within.node,
        attributeValue, alike.node.children_eq_nil, if_neg children, typed] at parsed reparsed
      obtain ⟨values, valued, parsed⟩ := Option.bind_eq_some_iff.1 parsed
      obtain ⟨value, read, made⟩ := Option.bind_eq_some_iff.1 valued
      obtain ⟨fields, shown, pair⟩ := Option.bind_eq_some_iff.1 parsed
      obtain ⟨values', valued', reparsed⟩ := Option.bind_eq_some_iff.1 reparsed
      obtain ⟨value', read', made'⟩ := Option.bind_eq_some_iff.1 valued'
      obtain ⟨fields', shown', pair'⟩ := Option.bind_eq_some_iff.1 reparsed
      cases made
      cases made'
      cases pair
      injection Option.some.inj pair' with objects
      injection objects with first
      rw [SameRead, read, read', first]
  | array => exact trivial
  | record => exact trivial
  | null => exact trivial
  | enumeration =>
      cases parsed
      injection Option.some.inj reparsed
  | empty => exact trivial
  | untyped =>
      cases parsed
      injection Option.some.inj reparsed
  | simple type typeName ns =>
      obtain ⟨plain, made, rfl⟩ := Option.map_eq_some_iff.1 parsed
      obtain ⟨plain', made', same⟩ := Option.map_eq_some_iff.1 reparsed
      obtain ⟨own, value, shown, rfl⟩ := handler_simple made
      obtain ⟨own', value', shown', rfl⟩ := handler_simple made'
      have objects := withNS_simple same
      exact made'.trans ((congrArg some objects).trans made.symm)

theorem opening_not_composite {place : Place} {declared : State V} {object : Object V}
    (opens : opening convert qName place state = some (.single object, declared)) :
    ¬ object.IsComposite := by
  obtain ⟨ref, kind, _, _, opens⟩ := opening_cases opens
  by_cases array : kind = .array
  · subst array
    obtain ⟨typeName, aType, _, _, ⟨⟩, _⟩ := opened_array opens
  by_cases record : kind = .record
  · subst record
    obtain ⟨_, field, _, ⟨_, found⟩ | ⟨_, found⟩⟩ := opened_record opens
    · cases found
      exact not_false
    · cases found
  · obtain ⟨_, other, parsed, ⟨⟩⟩ := opened_single array record opens
    exact parseSingle_not_composite parsed

theorem closed_parts {depth : Nat} {name : Text} {shape : Shape} {place : Place}
    {declared : State V} {object : Object V}
    (closes : closed convert depth qName name (.parts shape place, declared) =
      some (object, after)) :
    ∃ objects within, parseAll (parseParam convert depth (qualified qName name)) place.fields
        { declared with aState := shape.itemState } = some (objects, within) ∧
      object = shape.object name objects within.ns ∧
      after = { within with aState := declared.aState } := by
  obtain ⟨⟨objects, within⟩, parsed, pair⟩ := Option.bind_eq_some_iff.1 closes
  cases pair
  exact ⟨objects, within, parsed, rfl, rfl⟩

theorem Shape.object_inj {shape : Shape} {name : Text} {objects others : List (Object V)}
    {ns ns' : Namespaces} (same : shape.object name objects ns = shape.object name others ns') :
    objects = others := by
  cases shape with
  | record => exact (Object.record.inj same).1
  | array => exact (Object.array.inj same).1

theorem SpacedPlace.fields {place kept : Place} (spaced : SpacedPlace place kept)
    (length : kept.fields.length = place.fields.length) :
    List.Forall₂ SpacedPlace place.fields kept.fields := by
  rw [Place.fields, Place.fields, List.length_map, List.length_map] at length
  exact spaced.map_child (spaced.node.fromFirstChild.forall₂ length)

/-! ### Openings that agree -/

section Agreement

variable {place kept ref again : Place} {kind retold : Kind} {declared last : State V}

/-- A kind that has changed is the one of a record, and a text in front hides its first child. -/
theorem SameKind.of_told (spaced : SpacedPlace place kept) (anchored : place.Anchored)
    (refers : place.getRef = some ref) (refers' : kept.getRef = some again)
    (told : paramKind (qualified qName place.node.localName) ref.node (state.declaring ref.node) =
      some kind)
    (told' : paramKind (qualified qName kept.node.localName) again.node
      (state.declaring again.node) = some retold) :
    SameKind qName state place kept ref again kind ∧ retold = kind ∨
      kind = .record ∧ ¬ FirstText ref.node ∧ retold ≠ .array ∧ retold ≠ .record := by
  have refs := spaced.getRef (anchored _ List.mem_cons_self)
  rw [refers, refers'] at refs
  obtain ⟨alike⟩ := refs
  have onward := alike.getRef (anchored.getRef refers _ List.mem_cons_self)
  rw [spaced.node.localName, declaring_spaced alike.node] at told'
  have kinds (first) : SameKind qName state place kept ref again kind ∧ retold = kind :=
    ⟨⟨spaced, refers, refers', alike, onward, told, first⟩, Option.some.inj
      (told'.symm.trans ((paramKind_spaced alike.node first).trans told))⟩
  by_cases untold : Untold (qualified qName place.node.localName) ref.node
    (state.declaring ref.node)
  · obtain first | changed := untold.retold alike.node told told'
    · exact .inl (kinds fun _ => first)
    · exact .inr changed
  · exact .inl (kinds fun other => absurd other untold)

/-- What is read as one value with white space as without it. -/
theorem ValueUnseen.of_opening {object : Object V} (spaced : SpacedPlace place kept)
    (anchored : place.Anchored)
    (opens : opening convert qName place state = some (.single object, declared))
    (reopens : opening convert qName kept state = some (.single object, last)) :
    ValueUnseen convert qName state place kept declared ∧ last = declared := by
  obtain ⟨ref, kind, refers, told, opens⟩ := opening_cases opens
  obtain ⟨again, retold, refers', told', reopens⟩ := opening_cases reopens
  have still := anchored.getRef_getRef refers
  obtain ⟨same, rfl⟩ | ⟨rfl, shown, _, _⟩ :=
    SameKind.of_told spaced anchored refers refers' told told'
  · rw [spaced.node.localName, declaring_spaced same.alike.node] at reopens
    by_cases array : retold = .array
    · subst array
      obtain ⟨_, _, _, _, found, _⟩ := opened_array opens
      cases found
    by_cases record : retold = .record
    · subst record
      obtain ⟨rfl, field, leads, ⟨enumerated, made⟩ | ⟨_, made⟩⟩ := opened_record opens
      · obtain ⟨rfl, other, leads', ⟨_, remade⟩ | ⟨_, remade⟩⟩ := opened_record reopens
        · refine ⟨.enumeration same leads leads' enumerated ?_, rfl⟩
          cases made
          injection remade with objects
          injection objects with value
          exact value.symm
        · cases remade
      · cases made
    · obtain ⟨rfl, first, parsed, made⟩ := opened_single array record opens
      obtain ⟨rfl, second, reparsed, remade⟩ := opened_single array record reopens
      cases made
      cases remade
      exact ⟨.single same array record (.of_parseSingle same.alike same.onward
        parsed reparsed), rfl⟩
  · obtain ⟨_, field, leads, ⟨enumerated, _⟩ | ⟨_, made⟩⟩ := opened_record opens
    · cases still.symm.trans leads
      exact absurd (firstText_of_isEnumeration enumerated) shown
    · cases made

/-- What has parts with white space as without it. -/
theorem PartsUnseen.of_opening {shape other : Shape} {field within : Place}
    (spaced : SpacedPlace place kept) (anchored : place.Anchored)
    (opens : opening convert qName place state = some (.parts shape field, declared))
    (reopens : opening convert qName kept state = some (.parts other within, last)) :
    PartsUnseen qName state place kept shape declared field within ∧
      other = shape ∧ last = declared ∧ SpacedPlace field within ∧ field.Anchored := by
  obtain ⟨ref, kind, refers, told, opens⟩ := opening_cases opens
  obtain ⟨again, retold, refers', told', reopens⟩ := opening_cases reopens
  have around := anchored.getRef refers
  obtain ⟨same, rfl⟩ | ⟨_, _, no_array, no_record⟩ :=
    SameKind.of_told spaced anchored refers refers' told told'
  · rw [spaced.node.localName, declaring_spaced same.alike.node] at reopens
    by_cases array : retold = .array
    · subst array
      obtain ⟨typeName, aType, named, typed, found, rfl⟩ := opened_array opens
      obtain ⟨typeName', aType', named', typed', found', rfl⟩ := opened_array reopens
      rw [declaring_spaced same.alike.node] at named' typed' ⊢
      rw [arrayTypeName_spaced same.alike.node, named] at named'
      cases named'
      rw [typed] at typed'
      cases typed'
      cases found
      cases found'
      exact ⟨.array same named typed, rfl, rfl, same.alike, around⟩
    by_cases record : retold = .record
    · subst record
      obtain ⟨rfl, entry, leads, ⟨_, made⟩ | ⟨entered, made⟩⟩ := opened_record opens
      · cases made
      obtain ⟨rfl, entry', leads', ⟨_, remade⟩ | ⟨reentered, remade⟩⟩ := opened_record reopens
      · cases remade
      cases made
      cases remade
      have fields := same.onward
      rw [leads, leads'] at fields
      obtain ⟨alike⟩ := fields
      have first : place.node.localName ≠ ref.node.localName →
        SameFirst field.node within.node := by
        intro renamed front
        obtain ⟨item, head, isText⟩ := front
        rw [isEnumeration, same.alike.node.localName, if_neg renamed, head] at reentered
        simp [show item.nodeType = .text from isText] at reentered
      exact ⟨.record same leads leads' entered first,
        by rw [recordType_spaced alike.node], rfl, alike,
        around.getRef leads⟩
    · obtain ⟨_, _, _, made⟩ := opened_single array record opens
      cases made
  · obtain ⟨_, _, _, remade⟩ := opened_single no_array no_record reopens
    cases remade

end Agreement

/-- White space that leaves the objects as they were is not seen. -/
theorem Unseen.of_parseAll {depth other : Nat} {objects : List (Object V)} {last : State V}
    (spaced : List.Forall₂ SpacedPlace places others) (anchored : ∀ place ∈ places, place.Anchored)
    (parsed : parseAll (parseParam convert depth qName) places state = some (objects, after))
    (reparsed : parseAll (parseParam convert other qName) others state = some (objects, last)) :
    Unseen convert qName state places others after ∧ last = after := by
  induction depth generalizing other qName state places others objects after last with
  | zero =>
      cases spaced with
      | nil =>
          cases parsed
          cases reparsed
          exact ⟨.nil _ _, rfl⟩
      | cons first rest =>
          rw [parseAll_cons] at parsed
          cases parsed
  | succ depth depth_ih =>
      induction spaced generalizing state objects with
      | nil =>
          cases parsed
          cases reparsed
          exact ⟨.nil _ _, rfl⟩
      | @cons place kept places others first rest ih =>
          rw [parseAll_cons] at parsed reparsed
          obtain ⟨⟨object, next⟩, head, later⟩ := Option.bind_eq_some_iff.1 parsed
          obtain ⟨⟨tail, final⟩, remaining, pair⟩ := Option.map_eq_some_iff.1 later
          obtain ⟨⟨object', next'⟩, head', later'⟩ := Option.bind_eq_some_iff.1 reparsed
          obtain ⟨⟨tail', final'⟩, remaining', pair'⟩ := Option.map_eq_some_iff.1 later'
          cases pair
          cases pair'
          cases other with
          | zero => cases head'
          | succ other =>
              rw [parseParam_succ] at head head'
              obtain ⟨⟨found, declared⟩, opens, closes⟩ := Option.bind_eq_some_iff.1 head
              obtain ⟨⟨found', declared'⟩, opens', closes'⟩ := Option.bind_eq_some_iff.1 head'
              have around := anchored place List.mem_cons_self
              have remainder := fun other among => anchored other (List.mem_cons_of_mem place among)
              cases found with
              | single value =>
                  cases closes
                  cases found' with
                  | single value' =>
                      cases closes'
                      obtain ⟨unseen_value, rfl⟩ := ValueUnseen.of_opening first around opens opens'
                      obtain ⟨unseen, same⟩ := ih remainder remaining remaining'
                      exact ⟨.value unseen_value unseen, same⟩
                  | parts shape' field' =>
                      obtain ⟨inner, within, _, rfl, _⟩ := closed_parts closes'
                      exact absurd (shape'.isComposite _ _ _) (opening_not_composite opens)
              | parts shape field =>
                  obtain ⟨inner, within, inside, rfl, rfl⟩ := closed_parts closes
                  cases found' with
                  | single value' =>
                      cases closes'
                      exact absurd (shape.isComposite _ _ _) (opening_not_composite opens')
                  | parts shape' field' =>
                      obtain ⟨unseen_parts, rfl, rfl, fields, within_around⟩ :=
                        PartsUnseen.of_opening first around opens opens'
                      obtain ⟨inner', within', inside', same, rfl⟩ := closed_parts closes'
                      rw [first.node.localName] at same inside'
                      obtain rfl := Shape.object_inj same
                      have lengths := (length_parseAll inside').symm.trans (length_parseAll inside)
                      obtain ⟨unseen_inside, rfl⟩ :=
                        depth_ih (fields.fields lengths) within_around.fields inside inside'
                      obtain ⟨unseen, last_eq⟩ := ih remainder remaining remaining'
                      exact ⟨.parts unseen_parts unseen_inside unseen, last_eq⟩

end Sequences

end Openings

end Soap
end AdaWebServer

import AdaWebServer.Soap.Scopes

/-!
# The lookups of a run

Wherever `SOAP.Message.XML` asks the table of name spaces for something, the run has a lookup, with
the elements whose declarations have been read up to there.  The states are those of the parser.
-/

namespace AdaWebServer
namespace Soap

open Http2 (Text text)

/-- What the table is asked for. -/
inductive Use where
  /-- The name space of a wrapper. -/
  | wrapper
  /-- The name space of an object of a type. -/
  | object (typeName : Text)
  /-- The prefix of a standard name space, for an attribute of it. -/
  | namedItem (standard : Standard) (name : Text)
  /-- The name space under which a schema has another name of a type. -/
  | renamed (schema : Definition) (typeName : Text)
  /-- The prefixes of the name spaces that basic types are in, for the name of a type. -/
  | basic (schema : Definition) (typeName : Text)

/-- A lookup: the element with the prefix, the elements that have been read, and the table. -/
structure Lookup where
  use : Use
  place : Place
  read : List Node
  ns : Namespaces

/-- The name space of a wrapper in a table, when none has been set before. -/
def spaceOfWrapper (node : Node) (ns : Namespaces) : NameSpace :=
  if node.attributes ≠ [] then
    match getNamedItem node.attributes (text "xmlns:" ++ node.namePrefix) with
    | some xmlns => .create node.namePrefix xmlns.value
    | none => .none
  else .create node.namePrefix (ns.getNamespaceValue node.namePrefix)

/-- The name space that a lookup for an object or a wrapper finds. -/
def Lookup.found (lookup : Lookup) : NameSpace :=
  match lookup.use with
  | .wrapper => spaceOfWrapper lookup.place.node lookup.ns
  | .object typeName => lookup.ns.getNamespaceObject (nameSpaceOf typeName)
  | _ => .none

variable {V : Type}

/-! ## Where the table is asked -/

section Asked

variable (place : Place) (read : List Node) (state : State V)

/-- The lookup for the object of a type, where its name has a prefix. -/
def typeLookup (typeName : Text) : List Lookup :=
  if nameSpaceOf typeName = [] then [] else [⟨.object typeName, place, read, state.ns⟩]

/-- The lookup for a wrapper, where it has a prefix. -/
def wrapperLookup : List Lookup :=
  if place.node.namePrefix = [] then [] else [⟨.wrapper, place, read, state.ns⟩]

/-- The lookup for an attribute of a standard name space. -/
def attributeLookup (standard : Standard) (name : Text) : Lookup :=
  ⟨.namedItem standard name, place, read, state.ns⟩

/-- `Get_Schema_Type` comes to its loop over the name spaces of users. -/
def ComesToUsers (schema : Definition) (typeName : Text) : Prop :=
  let qualifier := if 46 ∈ typeName then typeName.takeWhile (· ≠ 46) else []
  let dotted := typeName.dropWhile (· ≠ 46)
  let ofQualifier := (schema.lookup qualifier).bind fun root => schema.lookup (root ++ dotted)
  schema.lookup typeName = none ∧ nameSpaceOf typeName ≠ [] ∧
    ¬(qualifier ≠ [] ∧ (ofQualifier.isSome ∨ schema.contains (dotted.drop 1)))

instance (schema : Definition) (typeName : Text) : Decidable (ComesToUsers schema typeName) :=
  inferInstanceAs (Decidable (_ ∧ _ ∧ _))

/-- The lookups of `To_Type`. -/
def toTypeLookups (typeName : Text) : List Lookup :=
  let localSchema := if state.schema = [] then Definition.default else state.schema
  let renamed : List Lookup :=
    if ComesToUsers localSchema typeName then
      [⟨.renamed localSchema typeName, place, read, state.ns⟩]
    else []
  match getFinalSchemaType localSchema state.ns (localSchema.length + 1) typeName with
  | none => renamed
  | some tName =>
      if tName = text "@enum" ∨ nameSpaceOf tName = [] then renamed
      else renamed ++ [⟨.basic localSchema tName, place, read, state.ns⟩]

/-- The lookups for the kind of an element. -/
def kindLookups (lqName : Text) : List Lookup :=
  let asked := attributeLookup place read state
  if state.wrapperName = text "Fault" then []
  else if state.schema.isA (lqName ++ text "@is_a") (text "@attribute") then []
  else if state.schema.isA (lqName ++ text "@is_a") (text "@array") then []
  else if noNS (getAttrValue place.node (state.xsiName (text "type"))) = text "Array" then
    [asked .xsi (text "type")]
  else if isArray lqName place.node state ∨
    state.schema.isA (lqName ++ text "@is_a") (text "@record") then
    [asked .xsi (text "type"), asked .enc (text "arrayType")]
  else if xsiType place.node state = none ∧ paramType lqName place.node state = [] ∧
      (state.aState = .void ∨ state.aState = .undefined) then
    [asked .xsi (text "type"), asked .enc (text "arrayType"), asked .xsi (text "null")] ++
      if (getNamedItem place.node.attributes (state.xsiName (text "null"))).isSome then []
      else [asked .xsi (text "nil")]
  else
    [asked .xsi (text "type"), asked .enc (text "arrayType")] ++
      toTypeLookups place read state (paramType lqName place.node state) ++
      match state.toType (paramType lqName place.node state) with
      | none => []
      | some type => if type = .undefined ∨ type = .enum then [] else [asked .xsi (text "nil")]

end Asked

/-- The lookups of an element whose children are not parsed. -/
def singleLookups (kind : Kind) (name : Text) (ref : Place) (qName : Text) (read : List Node)
    (state : State V) : List Lookup :=
  match kind with
  | .attributed =>
      match ref.getRef with
      | none => []
      | some field =>
          let typeName := attributedType (qualified qName name) field.node state
          attributeLookup field read state .xsi (text "type") ::
            typeLookup field read state typeName ++
            if ref.node.children = [] then [] else toTypeLookups field read state typeName
  | .null typeName _ => typeLookup ref read state typeName
  | .simple _ typeName _ =>
      -- the name space of an element that is neither a reference nor qualified is left out
      if isFalse state (qualified qName name ++ text "@is_ref") ∧
          isFalse state (nameSpaceOf typeName ++ text "@qualified") then []
      else typeLookup ref read state typeName
  | _ => []

section Trace

variable (convert : TypeState → Text → Option V)

/-- The lookups of the loop over places, and the elements that have been read behind it. -/
def traceAll (trace : Place → State V → List Node → List Lookup × List Node)
    (parse : Place → State V → Option (Object V × State V)) :
    List Place → State V → List Node → List Lookup × List Node
  | [], _, read => ([], read)
  | place :: places, state, read =>
      let first := trace place state read
      match parse place state with
      | none => first
      | some (_, after) =>
          let rest := traceAll trace parse places after first.2
          (first.1 ++ rest.1, rest.2)

/-- The lookups of `Parse_Array`. -/
def traceArray (trace : Text → Place → State V → List Node → List Lookup × List Node)
    (parse : Text → Place → State V → Option (Object V × State V)) (name : Text) (place : Place)
    (qName : Text) (state : State V) (read : List Node) : List Lookup × List Node :=
  let lqName := qualified qName name
  let inner := state.declaring place.node
  let read := read ++ [place.node]
  let own := if inner.encoding = .literal then [] else
    [attributeLookup place read inner .enc (text "arrayType")]
  match arrayTypeName lqName place.node inner with
  | none => (own, read)
  | some typeName =>
      let own := own ++ toTypeLookups place read inner typeName
      match inner.toType typeName with
      | none => (own, read)
      | some aType =>
          let items := traceAll (trace lqName) (parse lqName) place.fields
            { inner with aState := aType } read
          (own ++ items.1, items.2)

/-- The lookups of `Parse_Record`: the one for its own object is behind those of the fields. -/
def traceRecord (trace : Text → Place → State V → List Node → List Lookup × List Node)
    (parse : Text → Place → State V → Option (Object V × State V)) (name : Text) (place : Place)
    (qName : Text) (state : State V) (read : List Node) : List Lookup × List Node :=
  match place.getRef with
  | none => ([], read)
  | some field =>
      let own := if state.style = .document then [] else
        [attributeLookup field read state .xsi (text "type")]
      if isEnumeration name place.node field.node = some false then
        let lqName := qualified qName name
        let inside := traceAll (trace lqName) (parse lqName) field.fields
          { state with aState := .void } read
        match parseAll (parse lqName) field.fields { state with aState := .void } with
        | none => (own ++ inside.1, inside.2)
        | some (_, after) =>
            (own ++ inside.1 ++
                typeLookup field inside.2 after (recordType name field.node qName state), inside.2)
      else (own, read)

/-- The lookups of `Parse_Param`. -/
def traceParam : Nat → Text → Place → State V → List Node → List Lookup × List Node
  | 0, _, _, _, read => ([], read)
  | depth + 1, qName, place, state, read =>
      let name := place.node.localName
      match place.getRef with
      | none => ([], read)
      | some ref =>
          let read := read ++ [ref.node]
          let state := state.declaring ref.node
          let own := kindLookups ref read state (qualified qName name)
          match paramKind (qualified qName name) ref.node state with
          | none => (own, read)
          | some .array =>
              let inside := traceArray (traceParam depth) (parseParam convert depth)
                name ref qName state read
              (own ++ inside.1, inside.2)
          | some .record =>
              let inside := traceRecord (traceParam depth) (parseParam convert depth)
                name ref qName state read
              (own ++ inside.1, inside.2)
          | some kind => (own ++ singleLookups kind name ref qName read state, read)

/-- The lookups of `Parse_Wrapper`. -/
def traceWrapper (depth : Nat) (place : Place) (state : State V) (read : List Node) : List Lookup :=
  let read := read ++ [place.node]
  match enterWrapper place.node state with
  | none => []
  | some entered =>
      let name := place.node.localName
      wrapperLookup place read (state.declaring place.node) ++
        (traceAll (traceParam convert depth name) (parseParam convert depth name)
          (parameterPlaces place) entered read).1

/-- The lookups of `Parse_Body`. -/
def traceBody (depth : Nat) (place : Place) (state : State V) (read : List Node) : List Lookup :=
  let state := state.declaring place.node
  let read := read ++ [place.node]
  match state.style with
  | .rpc =>
      match (fromFirstChild place.node).head? with
      | none => []
      | some wrapper => traceWrapper convert depth (place.child wrapper) state read
  | .document =>
      (traceAll (traceParam convert depth []) (parseParam convert depth [])
        ((elementsOf place.node).map place.child) (enterDocument place.node state) read).1

/-- The lookups of `Parse_Envelope`. -/
def traceEnvelope (depth : Nat) (place : Place) (state : State V) (read : List Node) :
    List Lookup :=
  let state := state.declaring place.node
  let read := read ++ [place.node]
  if place.node.localName ≠ text "Envelope" then
    if state.strict then [] else traceWrapper convert depth place state read
  else
    match envelopeBody place.node with
    | none => []
    | some body => traceBody convert depth (place.child body) state read

/-- The lookups of `Parse_Document`. -/
def traceDocument (depth : Nat) (nodes : List Node) (state : State V) : List Lookup :=
  match nodes with
  | [root] => if root.skipped then [] else traceEnvelope convert depth ⟨root, []⟩ state []
  | _ => []

/-- The lookups of `Load_Payload`. -/
def lookups (fromUtf8 : Text → Option Text) (depth : Nat) (document : List Content)
    (envelope : Bool) (schema : Definition) : List Lookup :=
  match schema.getBindingStyle with
  | none => []
  | some style =>
      traceDocument convert depth (readDocument fromUtf8 document)
        { strict := envelope, style, schema }

end Trace

/-! ## The name spaces of objects -/

mutual

/-- The name spaces of an object and of what it contains. -/
def Object.spaces : Object V → List NameSpace
  | .simple _ _ _ _ ns => [ns]
  | .enumeration .. => []
  | .null _ _ ns => [ns]
  | .untyped .. => []
  | .array items _ _ => spacesOf items
  | .record fields _ _ ns => ns :: spacesOf fields
  | .attributed fields _ _ ns => ns :: spacesOf fields

def spacesOf : List (Object V) → List NameSpace
  | [] => []
  | object :: objects => object.spaces ++ spacesOf objects

end

/-! ## What lookups find -/

/-- The table is that of what has been read. -/
def Lookup.Tabled (lookup : Lookup) : Prop := lookup.ns = tableOf lookup.read

/-- A name space is none, has no prefix or has been found. -/
def Found (lookups : List Lookup) (space : NameSpace) : Prop :=
  space = .none ∨ space.name = [] ∨ ∃ lookup ∈ lookups, lookup.found = space

/-- A run is followed by its lookups: they are from the table, which is the one behind what has been
read, and the name spaces of the result are found by them. -/
structure Traced (trace : List Lookup × List Node) (result : Option (List NameSpace × Namespaces)) :
    Prop where
  tabled : ∀ lookup ∈ trace.1, lookup.Tabled
  table : ∀ spaces ns, result = some (spaces, ns) → ns = tableOf trace.2
  found : ∀ spaces ns, result = some (spaces, ns) → ∀ space ∈ spaces, Found trace.1 space

theorem Found.mono {lookups others : List Lookup} {space : NameSpace} (found : Found lookups space)
    (subset : lookups ⊆ others) : Found others space := by
  obtain none_there | plain | ⟨lookup, among, same⟩ := found
  · exact .inl none_there
  · exact .inr (.inl plain)
  · exact .inr (.inr ⟨lookup, subset among, same⟩)

/-- Lookups in front do not matter. -/
theorem Traced.behind {own : List Lookup} {trace : List Lookup × List Node}
    {result : Option (List NameSpace × Namespaces)} (traced : Traced trace result)
    (tabled : ∀ lookup ∈ own, lookup.Tabled) : Traced (own ++ trace.1, trace.2) result where
  tabled lookup among := (List.mem_append.1 among).elim (tabled lookup) (traced.tabled lookup)
  table := traced.table
  found spaces ns same space among :=
    (traced.found spaces ns same space among).mono (List.subset_append_right _ _)

section Asked

variable {place : Place} {read : List Node} {state : State V}

/-- Lookups in the table of a state. -/
def AskOf (ns : Namespaces) (read : List Node) (lookups : List Lookup) : Prop :=
  ∀ lookup ∈ lookups, lookup.ns = ns ∧ lookup.read = read

theorem AskOf.tabled {lookups : List Lookup} (asks : AskOf state.ns read lookups)
    (table : state.ns = tableOf read) : ∀ lookup ∈ lookups, lookup.Tabled := by
  intro lookup among
  obtain ⟨ns_eq, read_eq⟩ := asks lookup among
  rw [Lookup.Tabled, ns_eq, read_eq, table]

theorem AskOf.nil : AskOf state.ns read [] := by rintro lookup ⟨⟩

theorem AskOf.cons {lookup : Lookup} {lookups : List Lookup}
    (first : lookup.ns = state.ns ∧ lookup.read = read) (rest : AskOf state.ns read lookups) :
    AskOf state.ns read (lookup :: lookups) :=
  List.forall_mem_cons.2 ⟨first, rest⟩

theorem AskOf.append {lookups others : List Lookup} (front : AskOf state.ns read lookups)
    (behind : AskOf state.ns read others) : AskOf state.ns read (lookups ++ others) :=
  List.forall_mem_append.2 ⟨front, behind⟩

theorem ask_typeLookup (typeName : Text) :
    AskOf state.ns read (typeLookup place read state typeName) := by
  rw [typeLookup]
  split_ifs
  · exact .nil
  · exact .cons ⟨rfl, rfl⟩ .nil

theorem ask_wrapperLookup : AskOf state.ns read (wrapperLookup place read state) := by
  rw [wrapperLookup]
  split_ifs
  · exact .nil
  · exact .cons ⟨rfl, rfl⟩ .nil

theorem ask_toTypeLookups (typeName : Text) :
    AskOf state.ns read (toTypeLookups place read state typeName) := by
  rw [toTypeLookups]
  generalize (if state.schema = [] then Definition.default else state.schema) = localSchema
  have asks : AskOf state.ns read (if ComesToUsers localSchema typeName then
      [(⟨.renamed localSchema typeName, place, read, state.ns⟩ : Lookup)] else []) := by
    split_ifs
    · exact .cons ⟨rfl, rfl⟩ .nil
    · exact .nil
  generalize (if ComesToUsers localSchema typeName then
      [(⟨.renamed localSchema typeName, place, read, state.ns⟩ : Lookup)] else []) =
        renamed at asks ⊢
  cases getFinalSchemaType localSchema state.ns (localSchema.length + 1) typeName with
  | none => exact asks
  | some tName =>
      dsimp only
      split_ifs
      · exact asks
      · exact asks.append (.cons ⟨rfl, rfl⟩ .nil)

theorem ask_kindLookups (lqName : Text) :
    AskOf state.ns read (kindLookups place read state lqName) := by
  have asked (standard : Standard) (name : Text) :
      (attributeLookup place read state standard name).ns = state.ns ∧
        (attributeLookup place read state standard name).read = read := ⟨rfl, rfl⟩
  rw [kindLookups]
  split_ifs
  · exact .nil
  · exact .nil
  · exact .nil
  · exact .cons (asked _ _) .nil
  · exact .cons (asked _ _) (.cons (asked _ _) .nil)
  · exact .cons (asked _ _) (.cons (asked _ _) (.cons (asked _ _) .nil))
  · exact .cons (asked _ _) (.cons (asked _ _) (.cons (asked _ _) (.cons (asked _ _) .nil)))
  · refine AskOf.append (.append (.cons (asked _ _) (.cons (asked _ _) .nil))
      (ask_toTypeLookups _)) ?_
    cases state.toType (paramType lqName place.node state) with
    | none => exact .nil
    | some type =>
        dsimp only
        split_ifs
        · exact .nil
        · exact .cons (asked _ _) .nil

theorem ask_singleLookups {kind : Kind} {name qName : Text} :
    AskOf state.ns read (singleLookups kind name place qName read state) := by
  cases kind with
  | attributed =>
      rw [singleLookups]
      cases place.getRef with
      | none => exact .nil
      | some field =>
          refine AskOf.append (.cons ⟨rfl, rfl⟩ (ask_typeLookup _)) ?_
          split_ifs
          · exact .nil
          · exact ask_toTypeLookups _
  | null typeName ns => exact ask_typeLookup _
  | simple type typeName ns =>
      rw [singleLookups]
      split_ifs
      · exact .nil
      · exact ask_typeLookup _
  | _ => exact .nil

theorem found_typeLookup (place : Place) (read : List Node) (state : State V) (typeName : Text) :
    Found (typeLookup place read state typeName)
      (state.ns.getNamespaceObject (nameSpaceOf typeName)) := by
  rw [typeLookup]
  split_ifs with plain
  · rw [plain, Namespaces.getNamespaceObject]
    cases among : List.find? (fun space : NameSpace => space.name = []) state.ns.user with
    | none => exact .inl rfl
    | some space => exact .inr (.inl (of_decide_eq_true (List.find?_some among :)))
  · exact .inr (.inr ⟨_, List.mem_singleton_self _, rfl⟩)

/-- The name space of a wrapper is found in the table. -/
theorem wrapperNameSpace_eq (fresh : state.nameSpace = .none) (node : Node) :
    wrapperNameSpace node state =
      if node.namePrefix = [] then .none else spaceOfWrapper node state.ns := by
  rw [wrapperNameSpace, fresh]
  rfl

/-- The loop of `Get_Schema_Type` takes the name that the schema has under the name space that is
found. -/
theorem renamedType_eq (typeName : Text) (schema : Definition) (ns : Namespaces) :
    renamedType typeName schema ns = (renamingUrl schema typeName ns.user).bind
      (renamedUnder schema typeName) := by
  rw [renamedType, renamingUrl]
  induction ns.user with
  | nil => rfl
  | cons space user induction =>
      rw [List.findSome?_cons, List.find?_cons]
      by_cases same : space.name = nameSpaceOf typeName
      · rw [if_pos same]
        cases renamed : renamedUnder schema typeName space.value with
        | none =>
            rw [show ((schema.lookup space.value).bind fun renamed =>
              schema.lookup (withNS renamed typeName)) = none from renamed]
            simpa [renamed] using induction
        | some name =>
            rw [show ((schema.lookup space.value).bind fun renamed =>
              schema.lookup (withNS renamed typeName)) = some name from renamed]
            simp [renamed, same]
      · rw [if_neg same]
        simpa [same] using induction

end Asked

end Soap
end AdaWebServer

import AdaWebServer.Soap.Lookups
import AdaWebServer.Soap.WhiteSpace
import Mathlib.Data.List.TakeWhile

/-!
# Name spaces out of their scopes

A lookup for a name space of users finds the first of the ten declarations that the table has room
for, and one for a standard name space the last, whether or not the element is inside of the one
that declares it.  What is found is in its scope where that declaration is the innermost one.
-/

namespace AdaWebServer
namespace Soap

open Http2 (Text text)

variable {V : Type} {convert : TypeState → Text → Option V}

/-! ## Elements without children that are parsed -/

/-- The name space in the kind of an element is that of its type. -/
theorem typedKind_nameSpace {lqName : Text} {ref : Node} {state : State V}
    {xsd : Text} {kind : Kind} (told : typedKind lqName ref state xsd = some kind) :
    (∀ typeName ns, kind = .null typeName ns →
      ns = state.ns.getNamespaceObject (nameSpaceOf typeName)) ∧
    ∀ type typeName ns, kind = .simple type typeName ns →
      (isFalse state (lqName ++ text "@is_ref") ∧
          isFalse state (nameSpaceOf typeName ++ text "@qualified")) ∧ ns = .none ∨
        ¬(isFalse state (lqName ++ text "@is_ref") ∧
          isFalse state (nameSpaceOf typeName ++ text "@qualified")) ∧
        ns = state.ns.getNamespaceObject (nameSpaceOf typeName) := by
  obtain ⟨type, -, told⟩ := Option.bind_eq_some_iff.1 told
  dsimp only at told
  split_ifs at told with undefined enumeration nil unqualified
  · cases told
    exact ⟨by rintro _ _ ⟨⟩, by rintro _ _ _ ⟨⟩⟩
  · cases told
    exact ⟨by rintro _ _ ⟨⟩, by rintro _ _ _ ⟨⟩⟩
  · cases told
    exact ⟨by rintro _ _ ⟨⟩; rfl, by rintro _ _ _ ⟨⟩⟩
  · cases told
    exact ⟨by rintro _ _ ⟨⟩, by rintro _ _ _ ⟨⟩; exact .inl ⟨unqualified, rfl⟩⟩
  · cases told
    exact ⟨by rintro _ _ ⟨⟩, by rintro _ _ _ ⟨⟩; exact .inr ⟨unqualified, rfl⟩⟩

theorem paramKind_nameSpace {lqName : Text} {ref : Node} {state : State V} {kind : Kind}
    (told : paramKind lqName ref state = some kind) :
    (∀ typeName ns, kind = .null typeName ns →
      ns = .none ∨ ns = state.ns.getNamespaceObject (nameSpaceOf typeName)) ∧
    ∀ type typeName ns, kind = .simple type typeName ns →
      (isFalse state (lqName ++ text "@is_ref") ∧
          isFalse state (nameSpaceOf typeName ++ text "@qualified")) ∧ ns = .none ∨
        ¬(isFalse state (lqName ++ text "@is_ref") ∧
          isFalse state (nameSpaceOf typeName ++ text "@qualified")) ∧
        ns = state.ns.getNamespaceObject (nameSpaceOf typeName) := by
  rw [paramKind] at told
  split_ifs at told with fault attributed array record untyped
  · cases told
    exact ⟨by rintro _ _ ⟨⟩, by rintro _ _ _ ⟨⟩⟩
  · cases told
    exact ⟨by rintro _ _ ⟨⟩, by rintro _ _ _ ⟨⟩⟩
  · cases told
    exact ⟨by rintro _ _ ⟨⟩, by rintro _ _ _ ⟨⟩⟩
  · cases told
    exact ⟨by rintro _ _ ⟨⟩, by rintro _ _ _ ⟨⟩⟩
  · rw [untypedKind] at told
    split_ifs at told
    · cases told
      exact ⟨by rintro _ _ ⟨⟩; exact .inl rfl, by rintro _ _ _ ⟨⟩⟩
    · generalize ref.children.head? = first at told
      generalize (getNamedItem ref.attributes (text "type")).isSome = typed at told
      cases first with
      | none =>
          cases typed <;> cases told
          exact ⟨by rintro _ _ ⟨⟩, by rintro _ _ _ ⟨⟩⟩
      | some first =>
          rw [kindOfFirst] at told
          split_ifs at told <;> cases told <;> exact ⟨by rintro _ _ ⟨⟩, by rintro _ _ _ ⟨⟩⟩
  · obtain ⟨null, simple⟩ := typedKind_nameSpace told
    exact ⟨fun typeName ns same => .inr (null typeName ns same), simple⟩

/-- The handlers give their objects no name space. -/
theorem spaces_handler {type : TypeState} {name typeName read : Text} {object : Object V}
    (made : handler convert type name typeName read = some object) : object.spaces = [.none] := by
  obtain ⟨own, value, shown, rfl⟩ := handler_simple made
  rfl

theorem spacesOf_handlers {objects : List (Object V)}
    (made : ∀ object ∈ objects, object.spaces = [.none]) :
    ∀ space ∈ spacesOf objects, space = .none := by
  induction objects with
  | nil => rintro space ⟨⟩
  | cons object objects induction =>
      intro space member
      rw [spacesOf] at member
      obtain own | rest := List.mem_append.mp member
      · rw [made object List.mem_cons_self] at own
        exact List.mem_singleton.mp own
      · exact induction (fun other among => made other (List.mem_cons_of_mem _ among)) space rest

theorem spaces_withNS {object : Object V} {ns space : NameSpace} (plain : object.spaces = [.none])
    (member : space ∈ (object.withNS ns).spaces) : space = .none ∨ space = ns := by
  cases object with
  | simple type value name typeName own =>
      rw [Object.withNS, Object.spaces] at member
      split_ifs at member
      · exact .inl ((List.mem_singleton.mp member).trans (List.cons.inj plain).1)
      · exact .inr (List.mem_singleton.mp member)
  | enumeration => cases plain
  | null name typeName own => exact .inl (List.mem_singleton.mp (plain ▸ member))
  | untyped => cases plain
  | array => exact .inl (List.mem_singleton.mp (plain ▸ member))
  | record => exact .inl (List.mem_singleton.mp (plain ▸ member))
  | attributed => exact .inl (List.mem_singleton.mp (plain ▸ member))

theorem spaces_attributeValue {node : Node} {tName : Text} {state : State V}
    {objects : List (Object V)} (valued : attributeValue convert node tName state = some objects) :
    ∀ object ∈ objects, object.spaces = [.none] := by
  rw [attributeValue] at valued
  split_ifs at valued
  · cases valued
    rintro object ⟨⟩
  · obtain ⟨type, -, valued⟩ := Option.bind_eq_some_iff.1 valued
    obtain ⟨object, made, pair⟩ := Option.bind_eq_some_iff.1 valued
    cases pair
    intro other among
    rw [List.mem_singleton.mp among]
    exact spaces_handler made

theorem mem_of_mapM {α β : Type} {f : α → Option β} {items : List α} {results : List β}
    (mapped : items.mapM f = some results) : ∀ result ∈ results, ∃ item ∈ items,
      f item = some result := by
  induction items generalizing results with
  | nil =>
      cases mapped
      rintro result ⟨⟩
  | cons item items induction =>
      rw [List.mapM_cons] at mapped
      obtain ⟨first, made, mapped⟩ := Option.bind_eq_some_iff.1 mapped
      obtain ⟨rest, later, pair⟩ := Option.bind_eq_some_iff.1 mapped
      cases pair
      intro result among
      obtain rfl | inside := List.mem_cons.mp among
      · exact ⟨item, List.mem_cons_self, made⟩
      · obtain ⟨other, member, made⟩ := induction later result inside
        exact ⟨other, List.mem_cons_of_mem _ member, made⟩

/-- The name spaces of an object without children that are parsed. -/
theorem found_parseSingle {kind : Kind} {name qName : Text} {ref : Place} {read : List Node}
    {state : State V} {object : Object V}
    (told : paramKind (qualified qName name) ref.node state = some kind)
    (parsed : parseSingle convert kind name ref qName state = some object) :
    ∀ space ∈ object.spaces, Found (singleLookups kind name ref qName read state) space := by
  cases kind with
  | fault =>
      have made : handler convert .string name _ _ = some object := parsed
      intro space member
      rw [spaces_handler made] at member
      exact .inl (List.mem_singleton.mp member)
  | attributed =>
      obtain ⟨field, referred, parsed⟩ := Option.bind_eq_some_iff.1 parsed
      obtain ⟨value, valued, parsed⟩ := Option.bind_eq_some_iff.1 parsed
      obtain ⟨fields, mapped, pair⟩ := Option.bind_eq_some_iff.1 parsed
      cases pair
      have plain : ∀ object ∈ value ++ fields, object.spaces = [.none] := by
        intro object among
        obtain of_value | of_field := List.mem_append.mp among
        · exact spaces_attributeValue valued object of_value
        · obtain ⟨att, -, made⟩ := mem_of_mapM mapped object of_field
          obtain ⟨type, -, made⟩ := Option.bind_eq_some_iff.1 made
          exact spaces_handler made
      intro space member
      rw [Object.spaces] at member
      obtain rfl | inside := List.mem_cons.mp member
      · rw [singleLookups, referred]
        exact (found_typeLookup field read state _).mono
          (fun _ among => List.mem_append_left _ (List.mem_cons_of_mem _ among))
      · exact .inl (spacesOf_handlers plain space inside)
  | array => cases parsed
  | record => cases parsed
  | null typeName ns =>
      cases parsed
      intro space member
      obtain rfl := List.mem_singleton.mp member
      obtain none_there | same := (paramKind_nameSpace told).1 typeName space rfl
      · exact .inl none_there
      · rw [same]
        exact found_typeLookup ref read state typeName
  | enumeration =>
      cases parsed
      rintro space ⟨⟩
  | empty =>
      cases parsed
      rintro space ⟨⟩
  | untyped =>
      cases parsed
      rintro space ⟨⟩
  | simple type typeName ns =>
      obtain ⟨plain, made, rfl⟩ := Option.map_eq_some_iff.1 parsed
      intro space member
      obtain none_there | rfl := spaces_withNS (spaces_handler made) member
      · exact .inl none_there
      · rw [singleLookups]
        obtain ⟨-, none_there⟩ | ⟨qualifies, same⟩ :=
          (paramKind_nameSpace told).2 type typeName space rfl
        · exact .inl none_there
        · rw [if_neg qualifies, same]
          exact found_typeLookup ref read state typeName

/-! ## Runs -/

/-- What a run leaves behind: the name spaces of its object, and the table. -/
def leaves (result : Object V × State V) : List NameSpace × Namespaces :=
  (result.1.spaces, result.2.ns)

def leavesAll (result : List (Object V) × State V) : List NameSpace × Namespaces :=
  (spacesOf result.1, result.2.ns)

theorem traced_none {trace : List Lookup × List Node} (tabled : ∀ lookup ∈ trace.1, lookup.Tabled) :
    Traced trace none :=
  ⟨tabled, by rintro _ _ ⟨⟩, by rintro _ _ ⟨⟩⟩

theorem traced_some {trace : List Lookup × List Node} {spaces : List NameSpace} {ns : Namespaces}
    (tabled : ∀ lookup ∈ trace.1, lookup.Tabled) (table : ns = tableOf trace.2)
    (found : ∀ space ∈ spaces, Found trace.1 space) : Traced trace (some (spaces, ns)) := by
  refine ⟨tabled, ?_, ?_⟩
  · rintro _ _ ⟨⟩
    exact table
  · rintro _ _ ⟨⟩
    exact found

theorem tabled_nil {lookups : List Lookup} (none_there : lookups = []) :
    ∀ lookup ∈ lookups, lookup.Tabled := by
  subst none_there
  rintro lookup ⟨⟩

theorem declaring_ns {state : State V} {read : List Node} (table : state.ns = tableOf read)
    (node : Node) : (state.declaring node).ns = tableOf (read ++ [node]) := by
  rw [tableOf_append, ← table]
  rfl

section All

variable {trace : Place → State V → List Node → List Lookup × List Node}
  {parse : Place → State V → Option (Object V × State V)}

/-- The loop over places follows its turns. -/
theorem traced_all
    (each : ∀ place state read, state.ns = tableOf read →
      Traced (trace place state read) ((parse place state).map leaves))
    (places : List Place) (state : State V) (read : List Node) (table : state.ns = tableOf read) :
    Traced (traceAll trace parse places state read)
      ((parseAll parse places state).map leavesAll) := by
  induction places generalizing state read with
  | nil => exact traced_some (tabled_nil rfl) table (by rintro space ⟨⟩)
  | cons place places induction =>
      have first := each place state read table
      rw [traceAll, parseAll_cons]
      cases parsed : parse place state with
      | none => exact traced_none first.tabled
      | some result =>
          rw [parsed] at first
          have rest := induction result.2 (trace place state read).2 (first.table _ _ rfl)
          have tabled : ∀ lookup ∈ (trace place state read).1 ++
              (traceAll trace parse places result.2 (trace place state read).2).1,
                lookup.Tabled := by
            intro lookup among
            obtain now | later := List.mem_append.mp among
            · exact first.tabled lookup now
            · exact rest.tabled lookup later
          rw [Option.bind_some]
          cases parsed_rest : parseAll parse places result.2 with
          | none => exact traced_none tabled
          | some others =>
              rw [parsed_rest] at rest
              refine traced_some tabled (rest.table _ _ rfl) ?_
              intro space member
              rw [spacesOf] at member
              obtain now | later := List.mem_append.mp member
              · exact (first.found _ _ rfl space now).mono (List.subset_append_left _ _)
              · exact (rest.found _ _ rfl space later).mono (List.subset_append_right _ _)

end All

section Nested

variable {trace : Text → Place → State V → List Node → List Lookup × List Node}
  {parse : Text → Place → State V → Option (Object V × State V)}

theorem traced_array
    (each : ∀ qName place state read, state.ns = tableOf read →
      Traced (trace qName place state read) ((parse qName place state).map leaves))
    (name : Text) (place : Place) (qName : Text) (state : State V) (read : List Node)
    (table : state.ns = tableOf read) :
    Traced (traceArray trace parse name place qName state read)
      ((parseArray parse name place qName state).map leaves) := by
  have declared := declaring_ns table place.node
  rw [traceArray, parseArray]
  dsimp only
  have own : AskOf (state.declaring place.node).ns (read ++ [place.node])
      (if (state.declaring place.node).encoding = .literal then []
        else [attributeLookup place (read ++ [place.node]) (state.declaring place.node) .enc
          (text "arrayType")]) := by
    split_ifs
    · exact .nil
    · exact .cons ⟨rfl, rfl⟩ .nil
  cases named : arrayTypeName (qualified qName name) place.node (state.declaring place.node) with
  | none => exact traced_none (own.tabled declared)
  | some typeName =>
      have asked := (own.append (@ask_toTypeLookups V place _ _ typeName)).tabled declared
      simp only [Option.bind_eq_bind, Option.bind_some]
      cases typed : (state.declaring place.node).toType typeName with
      | none => exact traced_none asked
      | some aType =>
          have items := traced_all (each (qualified qName name)) place.fields
            { state.declaring place.node with aState := aType } (read ++ [place.node]) declared
          simp only [Option.bind_some]
          cases parsed : parseAll (parse (qualified qName name)) place.fields
              { state.declaring place.node with aState := aType } with
          | none => exact traced_none (items.behind asked).tabled
          | some result =>
              rw [parsed] at items
              have behind := items.behind asked
              exact traced_some behind.tabled (behind.table _ _ rfl) (behind.found _ _ rfl)

theorem traced_record
    (each : ∀ qName place state read, state.ns = tableOf read →
      Traced (trace qName place state read) ((parse qName place state).map leaves))
    (name : Text) (place : Place) (qName : Text) (state : State V) (read : List Node)
    (table : state.ns = tableOf read) :
    Traced (traceRecord trace parse name place qName state read)
      ((parseRecord parse name place qName state).map leaves) := by
  rw [traceRecord, parseRecord]
  cases place.getRef with
  | none => exact traced_none (tabled_nil rfl)
  | some field =>
      have own : AskOf state.ns read (if state.style = .document then []
          else [attributeLookup field read state .xsi (text "type")]) := by
        split_ifs
        · exact .nil
        · exact .cons ⟨rfl, rfl⟩ .nil
      have asked := own.tabled table
      simp only [Option.bind_eq_bind, Option.bind_some]
      cases isEnumeration name place.node field.node with
      | none => exact traced_none asked
      | some enumerated =>
          cases enumerated with
          | true => exact traced_some asked table (by rintro space ⟨⟩)
          | false =>
              have fields := traced_all (each (qualified qName name)) field.fields
                { state with aState := .void } read table
              have behind_own := fields.behind asked
              simp only [Option.bind_some, if_true]
              cases parsed : parseAll (parse (qualified qName name)) field.fields
                  { state with aState := .void } with
              | none => exact traced_none behind_own.tabled
              | some result =>
                  rw [parsed] at fields behind_own
                  have behind := fields.table _ _ rfl
                  refine traced_some ?_ behind ?_
                  · exact List.forall_mem_append.2
                      ⟨behind_own.tabled, (ask_typeLookup _).tabled behind⟩
                  · intro space member
                    obtain rfl | inside := List.mem_cons.mp member
                    · exact (found_typeLookup field _ result.2 _).mono
                        (List.subset_append_right _ _)
                    · exact (behind_own.found _ _ rfl space inside).mono
                        (List.subset_append_left _ _)

end Nested

/-- Calls of `Parse_Param` inside of each other. -/
theorem traced_param (depth : Nat) (qName : Text) (place : Place) (state : State V)
    (read : List Node) (table : state.ns = tableOf read) :
    Traced (traceParam convert depth qName place state read)
      ((parseParam convert depth qName place state).map leaves) := by
  induction depth generalizing qName place state read with
  | zero => exact traced_none (tabled_nil rfl)
  | succ depth induction =>
      rw [traceParam, parseParam]
      dsimp only
      cases place.getRef with
      | none => exact traced_none (tabled_nil rfl)
      | some ref =>
          have declared := declaring_ns table ref.node
          have own := (@ask_kindLookups V ref _ _ (qualified qName place.node.localName)).tabled
            declared
          simp only [Option.bind_eq_bind, Option.bind_some]
          cases told : paramKind (qualified qName place.node.localName) ref.node
              (state.declaring ref.node) with
          | none => exact traced_none own
          | some kind =>
              have single : Traced
                  (kindLookups ref (read ++ [ref.node]) (state.declaring ref.node)
                      (qualified qName place.node.localName) ++
                    singleLookups kind place.node.localName ref qName (read ++ [ref.node])
                      (state.declaring ref.node), read ++ [ref.node])
                  (((parseSingle convert kind place.node.localName ref qName
                    (state.declaring ref.node)).map (·, state.declaring ref.node)).map leaves) := by
                have tabled := List.forall_mem_append.2
                  ⟨own, (@ask_singleLookups V ref _ _ kind place.node.localName qName).tabled
                    declared⟩
                cases parsed : parseSingle convert kind place.node.localName ref qName
                    (state.declaring ref.node) with
                | none => exact traced_none tabled
                | some object =>
                    exact traced_some tabled declared fun space among =>
                      (found_parseSingle told parsed space among).mono
                        (List.subset_append_right _ _)
              simp only [Option.bind_some]
              cases kind with
              | array => exact (traced_array induction _ ref qName _ _ declared).behind own
              | record => exact (traced_record induction _ ref qName _ _ declared).behind own
              | _ => exact single

/-! ## The whole message -/

section Message

variable {depth : Nat} {place : Place} {state after : State V} {read : List Node}

theorem enterWrapper_eq {node : Node} {entered : State V}
    (enters : enterWrapper node state = some entered) :
    entered.ns = (state.declaring node).ns ∧
      entered.nameSpace = wrapperNameSpace node (state.declaring node) := by
  obtain ⟨encoding, -, made⟩ := Option.bind_eq_some_iff.1 enters
  cases made
  exact ⟨rfl, rfl⟩

theorem tabled_wrapper (table : state.ns = tableOf read) :
    ∀ lookup ∈ traceWrapper convert depth place state read, lookup.Tabled := by
  have declared := declaring_ns table place.node
  rw [traceWrapper]
  dsimp only
  cases enters : enterWrapper place.node state with
  | none => exact tabled_nil rfl
  | some entered =>
      have parameters := traced_all (@traced_param V convert depth place.node.localName)
        (parameterPlaces place) entered (read ++ [place.node])
          ((enterWrapper_eq enters).1.trans declared)
      intro lookup among
      obtain own | inside := List.mem_append.mp among
      · exact ask_wrapperLookup.tabled declared lookup own
      · exact parameters.tabled lookup inside

theorem tabled_body (table : state.ns = tableOf read) :
    ∀ lookup ∈ traceBody convert depth place state read, lookup.Tabled := by
  have declared := declaring_ns table place.node
  rw [traceBody]
  cases (state.declaring place.node).style with
  | rpc =>
      dsimp only
      cases (fromFirstChild place.node).head? with
      | none => exact tabled_nil rfl
      | some wrapper => exact tabled_wrapper declared
  | document =>
      exact (traced_all (@traced_param V convert depth []) _
        (enterDocument place.node (state.declaring place.node)) _ declared).tabled

theorem tabled_envelope (table : state.ns = tableOf read) :
    ∀ lookup ∈ traceEnvelope convert depth place state read, lookup.Tabled := by
  have declared := declaring_ns table place.node
  rw [traceEnvelope]
  split_ifs
  · exact tabled_nil rfl
  · exact tabled_wrapper declared
  · cases envelopeBody place.node with
    | none => exact tabled_nil rfl
    | some body => exact tabled_body declared

/-- Every lookup of a run finds what the table has for the declarations read before it. -/
theorem tabled_lookups (convert : TypeState → Text → Option V) (fromUtf8 : Text → Option Text)
    (depth : Nat) (document : List Content) (envelope : Bool) (schema : Definition) :
    ∀ lookup ∈ lookups convert fromUtf8 depth document envelope schema, lookup.Tabled := by
  rw [lookups]
  cases schema.getBindingStyle with
  | none => exact tabled_nil rfl
  | some style =>
      dsimp only
      rw [traceDocument.eq_def]
      split
      · split_ifs
        · exact tabled_nil rfl
        · exact tabled_envelope rfl
      · exact tabled_nil rfl

/-! ### The name spaces of the result -/

theorem nameSpace_parseAll {parse : Place → State V → Option (Object V × State V)}
    (each : ∀ place state object after, parse place state = some (object, after) →
      after.nameSpace = state.nameSpace)
    {places : List Place} {objects : List (Object V)}
    (parsed : parseAll parse places state = some (objects, after)) :
    after.nameSpace = state.nameSpace := by
  induction places generalizing state objects with
  | nil =>
      cases parsed
      rfl
  | cons place places induction =>
      rw [parseAll_cons] at parsed
      obtain ⟨first, parsed_first, parsed⟩ := Option.bind_eq_some_iff.1 parsed
      obtain ⟨rest, later, pair⟩ := Option.map_eq_some_iff.1 parsed
      cases pair
      exact (induction later).trans (each place state first.1 first.2 parsed_first)

/-- Parameters leave the name space of the wrapper as it is. -/
theorem nameSpace_parseParam {qName : Text} {object : Object V}
    (parsed : parseParam convert depth qName place state = some (object, after)) :
    after.nameSpace = state.nameSpace := by
  induction depth generalizing qName place state object after with
  | zero => cases parsed
  | succ depth induction =>
      have each (qName : Text) (place : Place) (state : State V) (object : Object V)
        (after : State V)
          (parsed : parseParam convert depth qName place state = some (object, after)) :=
        induction parsed
      obtain ⟨ref, -, parsed⟩ := Option.bind_eq_some_iff.1 parsed
      obtain ⟨kind, -, parsed⟩ := Option.bind_eq_some_iff.1 parsed
      have single : ((parseSingle convert kind place.node.localName ref qName
            (state.declaring ref.node)).map (·, state.declaring ref.node)) = some (object, after) →
          after.nameSpace = state.nameSpace := by
        intro parsed
        obtain ⟨made, -, pair⟩ := Option.map_eq_some_iff.1 parsed
        cases pair
        rfl
      cases kind with
      | array =>
          obtain ⟨typeName, -, parsed⟩ := Option.bind_eq_some_iff.1 parsed
          obtain ⟨aType, -, parsed⟩ := Option.bind_eq_some_iff.1 parsed
          obtain ⟨⟨items, within⟩, all, pair⟩ := Option.bind_eq_some_iff.1 parsed
          cases pair
          have kept := nameSpace_parseAll (each _) all
          exact kept
      | record =>
          obtain ⟨field, -, parsed⟩ := Option.bind_eq_some_iff.1 parsed
          obtain ⟨enumerated, -, parsed⟩ := Option.bind_eq_some_iff.1 parsed
          cases enumerated with
          | true =>
              cases parsed
              rfl
          | false =>
              obtain ⟨⟨fields, within⟩, all, pair⟩ := Option.bind_eq_some_iff.1 parsed
              cases pair
              have kept := nameSpace_parseAll (each _) all
              exact kept
      | _ => exact single parsed

theorem found_wrapper (table : state.ns = tableOf read) (fresh : state.nameSpace = .none)
    (unfilled : state.parameters = [])
    (parsed : parseWrapper convert depth place state = some after) :
    ∀ space ∈ after.nameSpace :: spacesOf after.parameters,
      Found (traceWrapper convert depth place state read) space := by
  obtain ⟨entered, enters, parsed⟩ := Option.bind_eq_some_iff.1 parsed
  obtain ⟨⟨objects, final⟩, all, pair⟩ := Option.bind_eq_some_iff.1 parsed
  cases pair
  have none_before : entered.parameters = [] := by
    obtain ⟨encoding, -, made⟩ := Option.bind_eq_some_iff.1 enters
    cases made
    exact unfilled
  have parameters := traced_all (@traced_param V convert depth place.node.localName)
    (parameterPlaces place) entered (read ++ [place.node])
    ((enterWrapper_eq enters).1.trans (declaring_ns table place.node))
  have trace_eq : traceWrapper convert depth place state read =
      wrapperLookup place (read ++ [place.node]) (state.declaring place.node) ++
        (traceAll (traceParam convert depth place.node.localName)
          (parseParam convert depth place.node.localName) (parameterPlaces place) entered
          (read ++ [place.node])).1 := by
    rw [traceWrapper]
    simp only [enters]
  rw [all] at parameters
  rw [trace_eq]
  intro space member
  obtain rfl | inside := List.mem_cons.mp member
  · change Found _ final.nameSpace
    rw [nameSpace_parseAll (fun _ _ _ _ => nameSpace_parseParam) all, (enterWrapper_eq enters).2]
    refine Found.mono ?_ (List.subset_append_left _ _)
    have fresh_inside : (state.declaring place.node).nameSpace = .none := fresh
    rw [wrapperLookup, wrapperNameSpace_eq fresh_inside]
    split_ifs with plain
    · exact .inl rfl
    · exact .inr (.inr ⟨_, List.mem_singleton_self _, rfl⟩)
  · change space ∈ spacesOf (entered.parameters ++ objects) at inside
    rw [none_before, List.nil_append] at inside
    exact (parameters.found _ _ rfl space inside).mono (List.subset_append_right _ _)

theorem found_body (table : state.ns = tableOf read) (fresh : state.nameSpace = .none)
    (unfilled : state.parameters = []) (parsed : parseBody convert depth place state = some after) :
    ∀ space ∈ after.nameSpace :: spacesOf after.parameters,
      Found (traceBody convert depth place state read) space := by
  have declared := declaring_ns table place.node
  rw [parseBody] at parsed
  rw [traceBody]
  cases style : (state.declaring place.node).style with
  | rpc =>
      simp only [style] at parsed
      obtain ⟨wrapper, first, parsed⟩ := Option.bind_eq_some_iff.1 parsed
      simp only [first]
      exact found_wrapper declared fresh unfilled parsed
  | document =>
      simp only [style] at parsed
      obtain ⟨⟨objects, final⟩, all, pair⟩ := Option.bind_eq_some_iff.1 parsed
      cases pair
      have parameters := traced_all (@traced_param V convert depth [])
        ((elementsOf place.node).map place.child)
        (enterDocument place.node (state.declaring place.node)) _ declared
      rw [all] at parameters
      intro space member
      obtain rfl | inside := List.mem_cons.mp member
      · have kept := nameSpace_parseAll (fun _ _ _ _ => nameSpace_parseParam) all
        exact .inl (kept.trans fresh)
      · have objects_only : state.parameters ++ objects = objects := by
          rw [unfilled, List.nil_append]
        change space ∈ spacesOf (state.parameters ++ objects) at inside
        rw [objects_only] at inside
        exact parameters.found _ _ rfl space inside

theorem found_envelope (table : state.ns = tableOf read) (fresh : state.nameSpace = .none)
    (unfilled : state.parameters = [])
    (parsed : parseEnvelope convert depth place state = some after) :
    ∀ space ∈ after.nameSpace :: spacesOf after.parameters,
      Found (traceEnvelope convert depth place state read) space := by
  have declared := declaring_ns table place.node
  rw [parseEnvelope] at parsed
  rw [traceEnvelope]
  by_cases envelope : place.node.localName ≠ text "Envelope"
  · rw [if_pos envelope] at parsed ⊢
    split_ifs at parsed ⊢ with strict
    exact found_wrapper declared fresh unfilled parsed
  · rw [if_neg envelope] at parsed ⊢
    obtain ⟨body, only, parsed⟩ := Option.bind_eq_some_iff.1 parsed
    simp only [only]
    exact found_body declared fresh unfilled parsed

theorem found_document {nodes : List Node} (table : state.ns = tableOf [])
    (fresh : state.nameSpace = .none) (unfilled : state.parameters = [])
    (parsed : parseDocument convert depth nodes state = some after) :
    ∀ space ∈ after.nameSpace :: spacesOf after.parameters,
      Found (traceDocument convert depth nodes state) space := by
  rw [parseDocument.eq_def] at parsed
  split at parsed
  · rw [traceDocument]
    split_ifs at parsed ⊢ with skipped
    exact found_envelope table fresh unfilled parsed
  · cases parsed

end Message

/-- The name spaces of a payload are those that its lookups have found. -/
theorem found_loadPayload {fromUtf8 : Text → Option Text} {depth : Nat} {document : List Content}
    {envelope : Bool} {schema : Definition} {payload : Payload V}
    (loaded : loadPayload convert fromUtf8 depth document envelope schema = some payload) :
    ∀ space ∈ payload.nameSpace :: spacesOf payload.parameters,
      Found (lookups convert fromUtf8 depth document envelope schema) space := by
  obtain ⟨style, bound, loaded⟩ := Option.bind_eq_some_iff.1 loaded
  obtain ⟨state, parsed, built⟩ := Option.bind_eq_some_iff.1 loaded
  obtain ⟨usersNS, -, pair⟩ := Option.bind_eq_some_iff.1 built
  cases pair
  rw [lookups]
  simp only [bound]
  exact found_document rfl rfl rfl parsed

/-! ## Scopes -/

/-- What is found has the URL of the innermost declaration around an element.  For a standard name
space nothing may be found, and nothing is found for a prefix that is not declared there. -/
def SpaceScoped (place : Place) (ns : Text) (found : NameSpace) : Prop :=
  match urlAt place ns with
  | none => found.value = []
  | some url => found.value = url ∨ url ∈ standardUrls ∧ found.value = []

/-- What the table answers is what holds at the element: the name space of a prefix; for an
attribute with the name that is asked for, whether its prefix stands for the standard name space;
the URL under which the schema has another name of a type; and whether the prefix of a type stands
for a name space of basic types, unless the schema itself says so. -/
def Lookup.Scoped (lookup : Lookup) : Prop :=
  match lookup.use with
  | .wrapper => SpaceScoped lookup.place lookup.place.node.namePrefix lookup.found
  | .object typeName => SpaceScoped lookup.place (nameSpaceOf typeName) lookup.found
  | .namedItem standard name =>
      ∀ att ∈ lookup.place.node.attributes, 58 ∈ att.name → noNS att.name = name →
        (att.name = (standard.field lookup.ns).name ++ 58 :: name ↔
          standard.Bound lookup.place (nameSpaceOf att.name))
  | .renamed schema typeName =>
      renamingUrl schema typeName lookup.ns.user = renamingUrlAt schema typeName lookup.place
  | .basic schema typeName =>
      ∀ standard ∈ [Standard.xsd, .enc], standard.Named schema typeName ∨
        (nameSpaceOf typeName = (standard.field lookup.ns).name ↔
          standard.Bound lookup.place (nameSpaceOf typeName))

/-- The first of the ten declarations is the innermost one. -/
def FirstInnermost (read : List Node) (place : Place) (ns : Text) : Prop :=
  firstUrl read ns = userUrlAt place ns

/-- A wrapper declares its prefix itself; or it has no attributes, and the first of the ten
declarations is the innermost one; or it has some, and there is no declaration of a user around
it. -/
def WrapperInnermost (read : List Node) (place : Place) (ns : Text) : Prop :=
  (declaredUrl ns place.node).isSome ∨
    (place.node.attributes = [] ∧ FirstInnermost read place ns) ∨
    (place.node.attributes ≠ [] ∧ userUrlAt place ns = [])

/-- The last declaration of a standard name space has a prefix exactly if the prefix stands for it
at the element. -/
def LastInnermost (standard : Standard) (read : List Node) (place : Place) (ns : Text) : Prop :=
  ns = standard.lastPrefix read ↔ standard.Bound place ns

/-- The declaration that counts is the innermost one. -/
def Lookup.Innermost (lookup : Lookup) : Prop :=
  match lookup.use with
  | .wrapper => WrapperInnermost lookup.read lookup.place lookup.place.node.namePrefix
  | .object typeName => FirstInnermost lookup.read lookup.place (nameSpaceOf typeName)
  | .namedItem standard name =>
      ∀ att ∈ lookup.place.node.attributes, 58 ∈ att.name → noNS att.name = name →
        LastInnermost standard lookup.read lookup.place (nameSpaceOf att.name)
  | .renamed schema typeName =>
      renamingUrl schema typeName
          ((lookup.read.flatMap userDeclarations).take Namespaces.maxNameSpace) =
        renamingUrlAt schema typeName lookup.place
  | .basic schema typeName =>
      ∀ standard ∈ [Standard.xsd, .enc], standard.Named schema typeName ∨
        LastInnermost standard lookup.read lookup.place (nameSpaceOf typeName)

section Scoped

variable {place : Place} {read : List Node} {ns : Text} {found : NameSpace}

theorem scoped_iff_of_not_standard (user : found.value = [] ∨ found.value ∉ standardUrls) :
    SpaceScoped place ns found ↔ found.value = userUrlAt place ns := by
  rw [SpaceScoped, userUrlAt]
  cases urlAt place ns with
  | none => exact Iff.rfl
  | some url =>
      dsimp only
      split_ifs with standard
      · constructor
        · rintro (same | ⟨-, none_there⟩)
          · obtain none_there | away := user
            · exact none_there
            · exact absurd (same ▸ standard) away
          · exact none_there
        · exact fun none_there => .inr ⟨standard, none_there⟩
      · exact ⟨fun either => either.elim id fun both => absurd both.1 standard, .inl⟩

theorem urlAt_of_declared {url : Text} (declared : declaredUrl ns place.node = some url) :
    urlAt place ns = some url := by
  rw [urlAt, List.findSome?_cons, declared]

theorem scoped_iff_firstInnermost (value : found.value = firstUrl read ns) :
    SpaceScoped place ns found ↔ FirstInnermost read place ns := by
  rw [scoped_iff_of_not_standard (value ▸ firstUrl_not_standard _ _), value, FirstInnermost]

theorem scoped_wrapper_iff (place : Place) (read : List Node) :
    SpaceScoped place place.node.namePrefix (spaceOfWrapper place.node (tableOf read)) ↔
      WrapperInnermost read place place.node.namePrefix := by
  rw [spaceOfWrapper, WrapperInnermost]
  by_cases bare : place.node.attributes = []
  · have undeclared : ¬(declaredUrl place.node.namePrefix place.node).isSome := by
      rw [declaredUrl, bare]
      exact Bool.false_ne_true
    rw [if_neg (not_not_intro bare), scoped_iff_firstInnermost (getNamespaceValue_eq read _)]
    exact ⟨fun innermost => .inr (.inl ⟨bare, innermost⟩), fun either =>
      either.elim (absurd · undeclared) fun rest => rest.elim And.right fun both =>
        absurd bare both.1⟩
  · rw [if_pos bare]
    cases own : getNamedItem place.node.attributes (text "xmlns:" ++ place.node.namePrefix) with
    | some xmlns =>
        have declared : declaredUrl place.node.namePrefix place.node = some xmlns.value := by
          rw [declaredUrl, own]
          rfl
        refine iff_of_true ?_ (.inl (declared ▸ rfl))
        rw [SpaceScoped, urlAt_of_declared declared]
        exact .inl rfl
    | none =>
        have undeclared : ¬(declaredUrl place.node.namePrefix place.node).isSome := by
          rw [declaredUrl, own]
          exact Bool.false_ne_true
        rw [scoped_iff_of_not_standard (.inl rfl)]
        exact ⟨fun none_there => .inr (.inr ⟨bare, none_there.symm⟩), fun either =>
          either.elim (absurd · undeclared) fun rest =>
            rest.elim (fun both => absurd both.1 bare) fun both => both.2.symm⟩

/-- A name with a colon is its prefix and the rest. -/
theorem eq_append_iff_nameSpaceOf {qualifiedName name stored : Text} (colon : 58 ∈ qualifiedName)
    (rest : noNS qualifiedName = name) :
    qualifiedName = stored ++ 58 :: name ↔ nameSpaceOf qualifiedName = stored := by
  have split_eq : qualifiedName = nameSpaceOf qualifiedName ++ 58 :: name := by
    rw [noNS, if_pos colon] at rest
    rw [nameSpaceOf, if_pos colon]
    have parts := List.takeWhile_append_dropWhile (p := (· ≠ 58)) (l := qualifiedName)
    cases behind : qualifiedName.dropWhile (· ≠ 58) with
    | nil =>
        have all := List.dropWhile_eq_nil_iff.1 behind 58 colon
        simp at all
    | cons first later =>
        have stop := List.head?_dropWhile_not (· ≠ 58) qualifiedName
        rw [behind] at stop rest parts
        obtain rfl : first = 58 := by simpa using stop
        rw [← rest]
        exact parts.symm
  constructor
  · intro same
    exact List.append_cancel_right (split_eq.symm.trans same)
  · rintro rfl
    exact split_eq

theorem Lookup.Tabled.scoped_iff {lookup : Lookup} (tabled : lookup.Tabled) :
    lookup.Scoped ↔ lookup.Innermost := by
  obtain ⟨use, place, read, ns⟩ := lookup
  obtain rfl : ns = tableOf read := tabled
  rw [Lookup.Scoped, Lookup.Innermost]
  cases use with
  | wrapper => exact scoped_wrapper_iff place read
  | object typeName => exact scoped_iff_firstInnermost (value_getNamespaceObject read _)
  | namedItem standard name =>
      refine forall₄_congr fun att _ colon rest => ?_
      rw [LastInnermost, standard.name_field_tableOf, eq_append_iff_nameSpaceOf colon rest]
  | renamed schema typeName =>
      dsimp only
      rw [user_tableOf]
  | basic schema typeName =>
      refine forall₂_congr fun standard _ => ?_
      rw [LastInnermost, standard.name_field_tableOf]

end Scoped

/-- A call with two parameters beside each other, each of which declares the prefix of its type. -/
def siblings : List Content :=
  let record (name url : Text) : Content :=
    .element name [⟨text "xmlns:p", url⟩, ⟨text "xsi:type", text "p:T"⟩] []
  [.element (text "e:Envelope")
    [⟨text "xmlns:e", NameSpace.soapenvUrl⟩, ⟨text "xmlns:xsi", NameSpace.xsiUrl⟩]
    [.element (text "e:Body") []
      [.element (text "m:op") [⟨text "xmlns:m", text "urn:m"⟩]
        [record (text "a") (text "urn:a"), record (text "b") (text "urn:b")]]]]

/-- Texts as they are. -/
def asRead (_ : TypeState) (read : Text) : Option Text := some read

/-- What a lookup for an object finds, and the URL of the innermost declaration. -/
def Lookup.spaces (lookup : Lookup) : Option (Text × Option Text) :=
  match lookup.use with
  | .object typeName => some (lookup.found.value, urlAt lookup.place (nameSpaceOf typeName))
  | _ => none

theorem spaces_siblings :
    (lookups asRead some 2 siblings true []).filterMap Lookup.spaces =
      [(text "urn:a", some (text "urn:a")), (text "urn:a", some (text "urn:b"))] := by
  decide +kernel

theorem second_sibling :
    ∃ lookup ∈ lookups asRead some 2 siblings true [],
      lookup.spaces = some (text "urn:a", some (text "urn:b")) := by
  have second : (text "urn:a", some (text "urn:b")) ∈
      (lookups asRead some 2 siblings true []).filterMap Lookup.spaces := by
    rw [spaces_siblings]
    exact List.mem_of_getLast? rfl
  exact List.mem_filterMap.mp second

end Soap
end AdaWebServer

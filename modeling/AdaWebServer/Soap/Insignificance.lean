import AdaWebServer.Soap.WhiteSpace

/-!
# Messages with white space

A message with white space and comments between its elements is loaded as without them if and only
if the white space is not seen: none beside the body, behind the first field of a record or item of
an array, in front of a first child that tells what its element is, or where a value is read.
-/

namespace AdaWebServer
namespace Soap

open Http2 (Text text toLower)

variable {V : Type}

/-! ## The body of an envelope -/

/-- Nothing is put beside the children of an envelope, except in front of one that is taken for a
header and a body. -/
def SameBody (node kept : Node) : Prop :=
  kept.children.length = node.children.length ∨
    ∃ sole space again, node.children = [sole] ∧ kept.children = [space, again] ∧ space.IsText ∧
      toLower sole.localName = text "header"

section Envelope

variable {node kept body : Node}

theorem envelopeBody_one {sole : Node} (children : node.children = [sole]) :
    envelopeBody node = some body ↔ sole.skipped = false ∧ sole = body := by
  rw [envelopeBody, children, fromFirstChild, children]
  cases skipped : sole.skipped with
  | true => simp [skipped]
  | false => simp [skipped]

theorem envelopeBody_two {first second : Node} (children : node.children = [first, second]) :
    envelopeBody node = some body ↔
      second.skipped = false ∧
        toLower (if first.skipped then second else first).localName = text "header" ∧
        second = body := by
  rw [envelopeBody, children, fromFirstChild, children]
  cases front : first.skipped with
  | true =>
      cases behind : second.skipped with
      | true => simp [front, behind]
      | false =>
          by_cases header : toLower second.localName = text "header"
          · simp [front, behind, parseHeader, header]
          · simp [front, behind, parseHeader, header]
  | false =>
      by_cases header : toLower first.localName = text "header"
      · simp [front, parseHeader, header]
      · simp [front, parseHeader, header]

theorem children_of_envelopeBody (found : envelopeBody node = some body) :
    (∃ sole, node.children = [sole]) ∨ ∃ first second, node.children = [first, second] := by
  rw [envelopeBody] at found
  split at found
  · exact .inl ⟨_, ‹_›⟩
  · exact .inr ⟨_, _, ‹_›⟩
  · cases found

theorem envelopeBody_mem (found : envelopeBody node = some body) : body ∈ node.children := by
  obtain ⟨sole, children⟩ | ⟨first, second, children⟩ := children_of_envelopeBody found
  · obtain ⟨_, rfl⟩ := (envelopeBody_one children).1 found
    rw [children]
    exact List.mem_cons_self
  · obtain ⟨_, _, rfl⟩ := (envelopeBody_two children).1 found
    rw [children]
    exact List.mem_cons_of_mem _ List.mem_cons_self

theorem sameBody_one (spaced : Spaced node kept) {sole : Node} (children : node.children = [sole])
    (read : sole.skipped = false) :
    (SameBody node kept → ∃ other, envelopeBody kept = some other) ∧
      ∀ other, envelopeBody kept = some other → SameBody node kept ∧ Spaced sole other := by
  have inserted := spaced.children
  rw [children] at inserted
  constructor
  · rintro (length | ⟨_, space, again, sole_eq, padded, isText, header⟩)
    · rw [children] at length
      obtain ⟨again, padded⟩ := List.length_eq_one_iff.1 length
      rw [padded] at inserted
      obtain ⟨⟩ | ⟨alike, _⟩ := inserted.forall₂ rfl
      exact ⟨again, (envelopeBody_one padded).2 ⟨alike.skipped.trans read, rfl⟩⟩
    · rw [children] at sole_eq
      cases sole_eq
      rw [padded] at inserted
      cases inserted with
      | new _ rest =>
          obtain ⟨⟩ | ⟨alike, _⟩ := rest.forall₂ rfl
          refine ⟨again, (envelopeBody_two padded).2 ⟨alike.skipped.trans read, ?_, rfl⟩⟩
          rw [if_pos isText.skipped, alike.localName]
          exact header
      | same alike _ =>
          rw [← alike.skipped, isText.skipped] at read
          cases read
  · intro other found
    obtain ⟨again, padded⟩ | ⟨space, again, padded⟩ := children_of_envelopeBody found
    · obtain ⟨_, rfl⟩ := (envelopeBody_one padded).1 found
      rw [padded] at inserted
      obtain ⟨⟩ | ⟨alike, _⟩ := inserted.forall₂ rfl
      exact ⟨.inl (by rw [children, padded]; rfl), alike⟩
    · obtain ⟨shown, header, rfl⟩ := (envelopeBody_two padded).1 found
      rw [padded] at inserted
      cases inserted with
      | new isText rest =>
          obtain ⟨⟩ | ⟨alike, _⟩ := rest.forall₂ rfl
          rw [if_pos isText.skipped, alike.localName] at header
          exact ⟨.inr ⟨sole, space, again, children, padded, isText, header⟩, alike⟩
      | same _ rest =>
          cases rest with
          | new isText _ =>
              rw [isText.skipped] at shown
              cases shown

theorem sameBody_two (spaced : Spaced node kept) {first second : Node}
    (children : node.children = [first, second]) (read : second.skipped = false)
    (header : toLower (if first.skipped then second else first).localName = text "header") :
    (SameBody node kept → ∃ other, envelopeBody kept = some other) ∧
      ∀ other, envelopeBody kept = some other → SameBody node kept ∧ Spaced second other := by
  have inserted := spaced.children
  rw [children] at inserted
  constructor
  · rintro (length | ⟨sole, _, _, sole_eq, _⟩)
    · rw [children] at length
      obtain ⟨head, behind, padded⟩ := List.length_eq_two.1 length
      rw [padded] at inserted
      obtain ⟨⟩ | ⟨front, ⟨⟩ | ⟨alike, _⟩⟩ := inserted.forall₂ rfl
      refine ⟨behind, (envelopeBody_two padded).2 ⟨alike.skipped.trans read, ?_, rfl⟩⟩
      rw [front.skipped, apply_ite Node.localName, alike.localName, front.localName,
        ← apply_ite Node.localName]
      exact header
    · rw [children] at sole_eq
      cases sole_eq
  · intro other found
    obtain ⟨sole, padded⟩ | ⟨head, behind, padded⟩ := children_of_envelopeBody found
    · rw [padded] at inserted
      have shorter := inserted.length_le
      simp at shorter
    · obtain ⟨_, _, rfl⟩ := (envelopeBody_two padded).1 found
      rw [padded] at inserted
      obtain ⟨⟩ | ⟨front, ⟨⟩ | ⟨alike, _⟩⟩ := inserted.forall₂ rfl
      exact ⟨.inl (by rw [children, padded]; rfl), alike⟩

/-- The body is found in the same place if nothing is put beside it, and only then. -/
theorem envelopeBody_spaced (spaced : Spaced node kept) (found : envelopeBody node = some body) :
    (SameBody node kept → ∃ other, envelopeBody kept = some other) ∧
      ∀ other, envelopeBody kept = some other → SameBody node kept ∧ Spaced body other := by
  obtain ⟨sole, children⟩ | ⟨first, second, children⟩ := children_of_envelopeBody found
  · obtain ⟨read, rfl⟩ := (envelopeBody_one children).1 found
    exact sameBody_one spaced children read
  · obtain ⟨read, header, rfl⟩ := (envelopeBody_two children).1 found
    exact sameBody_two spaced children read header

end Envelope

/-! ## Messages -/

section Messages

variable (convert : TypeState → Text → Option V)

/-- The white space in a wrapper is not seen. -/
def WrapperUnseen (place kept : Place) (state : State V) : Prop :=
  ∃ entered after, enterWrapper place.node state = some entered ∧
    Unseen convert place.node.localName entered (parameterPlaces place) (parameterPlaces kept) after

/-- The white space in a body is not seen. -/
def BodyUnseen (place kept : Place) (state : State V) : Prop :=
  match state.style with
  | .rpc =>
      ∃ wrapper other, (fromFirstChild place.node).head? = some wrapper ∧
        (fromFirstChild kept.node).head? = some other ∧
        WrapperUnseen convert (place.child wrapper) (kept.child other) (state.declaring place.node)
  | .document =>
      ∃ after, Unseen convert [] (enterDocument place.node (state.declaring place.node))
        ((elementsOf place.node).map place.child) ((elementsOf kept.node).map kept.child) after

/-- The white space in the root of a message is not seen. -/
def EnvelopeUnseen (place kept : Place) (state : State V) : Prop :=
  if place.node.localName = text "Envelope" then
    SameBody place.node kept.node ∧
      ∀ body other, envelopeBody place.node = some body → envelopeBody kept.node = some other →
        BodyUnseen convert (place.child body) (kept.child other) (state.declaring place.node)
  else WrapperUnseen convert place kept (state.declaring place.node)

/-- The white space in a document is not seen. -/
def DocumentUnseen (nodes others : List Node) (state : State V) : Prop :=
  ∃ root other, nodes = [root] ∧ others = [other] ∧
    EnvelopeUnseen convert ⟨root, []⟩ ⟨other, []⟩ state

variable {convert} {place kept : Place} {state after last : State V} {depth other : Nat}

theorem parameterPlaces_spaced (spaced : SpacedPlace place kept) :
    List.Forall₂ SpacedPlace (parameterPlaces place) (parameterPlaces kept) :=
  spaced.map_child (spaced.node.children.filter (fun _ isText =>
    decide_eq_false (not_not_intro isText)) fun _ _ alike => by rw [alike.nodeType])

theorem elements_spaced (spaced : SpacedPlace place kept) :
    List.Forall₂ SpacedPlace ((elementsOf place.node).map place.child)
      ((elementsOf kept.node).map kept.child) :=
  spaced.map_child spaced.node.elementsOf

theorem anchored_parameterPlaces (anchored : place.Anchored) :
    ∀ parameter ∈ parameterPlaces place, parameter.Anchored := by
  intro parameter among
  obtain ⟨node, member, rfl⟩ := List.mem_map.1 among
  exact anchored.child (List.mem_of_mem_filter member)

theorem anchored_elements (anchored : place.Anchored) :
    ∀ parameter ∈ (elementsOf place.node).map place.child, parameter.Anchored := by
  intro parameter among
  obtain ⟨node, member, rfl⟩ := List.mem_map.1 among
  exact anchored.child (List.mem_of_mem_filter member)

theorem enterWrapper_spaced {node padded : Node} (spaced : Spaced node padded) :
    enterWrapper padded state = enterWrapper node state := by
  rw [enterWrapper, enterWrapper, declaring_spaced spaced, spaced.localName, wrapperNameSpace,
    wrapperNameSpace, spaced.namePrefix, spaced.attributes]

theorem foldl_spaced {step : Text → Node → Text}
    (agrees : ∀ start node padded, Spaced node padded → step start padded = step start node)
    {nodes others : List Node} (spaced : List.Forall₂ Spaced nodes others) (start : Text) :
    others.foldl step start = nodes.foldl step start := by
  induction spaced generalizing start with
  | nil => rfl
  | cons alike _ ih =>
      rw [List.foldl_cons, List.foldl_cons, agrees start _ _ alike]
      exact ih _

theorem signature_spaced {nodes others : List Node} (spaced : List.Forall₂ Spaced nodes others) :
    signature others = signature nodes :=
  foldl_spaced (fun _ _ _ alike => by rw [alike.nodeName]) spaced []

theorem enterDocument_spaced {node padded : Node} (spaced : Spaced node padded) :
    enterDocument padded state = enterDocument node state := by
  rw [enterDocument, enterDocument, signature_spaced spaced.elementsOf]

/-! ### Unseen white space -/

theorem WrapperUnseen.parseWrapper_eq (spaced : SpacedPlace place kept)
    (unseen : WrapperUnseen convert place kept state) :
    parseWrapper convert depth kept state = parseWrapper convert depth place state := by
  obtain ⟨entered, final, enters, unseen⟩ := unseen
  rw [parseWrapper, parseWrapper, enterWrapper_spaced spaced.node, enters, spaced.node.localName]
  simp only [Option.bind_eq_bind, Option.bind_some]
  rw [(unseen.parseAll_eq depth).1]

theorem BodyUnseen.parseBody_eq (spaced : SpacedPlace place kept)
    (unseen : BodyUnseen convert place kept state) :
    parseBody convert depth kept state = parseBody convert depth place state := by
  rw [parseBody, parseBody, declaring_spaced spaced.node]
  have style : (state.declaring place.node).style = state.style := rfl
  rw [BodyUnseen] at unseen
  simp only [style]
  cases shown : state.style with
  | rpc =>
      rw [shown] at unseen
      obtain ⟨wrapper, again, first, first', unseen⟩ := unseen
      have wrappers := spaced.node.firstChild
      rw [first, first'] at wrappers
      obtain ⟨alike⟩ := wrappers
      simp only [first, first', Option.bind_eq_bind, Option.bind_some]
      exact unseen.parseWrapper_eq (spaced.child alike)
  | document =>
      rw [shown] at unseen
      obtain ⟨final, unseen⟩ := unseen
      simp only [enterDocument_spaced spaced.node]
      rw [(unseen.parseAll_eq depth).1]

theorem EnvelopeUnseen.parseEnvelope_eq (spaced : SpacedPlace place kept)
    (unseen : EnvelopeUnseen convert place kept state)
    (parsed : parseEnvelope convert depth place state = some after) :
    parseEnvelope convert depth kept state = some after := by
  rw [parseEnvelope] at parsed ⊢
  rw [declaring_spaced spaced.node, spaced.node.localName]
  rw [EnvelopeUnseen] at unseen
  by_cases envelope : place.node.localName = text "Envelope"
  · rw [if_pos envelope] at unseen
    rw [if_neg (not_not_intro envelope)] at parsed ⊢
    obtain ⟨sameBody, unseen⟩ := unseen
    obtain ⟨body, found, parsed⟩ := Option.bind_eq_some_iff.1 parsed
    obtain ⟨exists_body, only_body⟩ := envelopeBody_spaced spaced.node found
    obtain ⟨again, refound⟩ := exists_body sameBody
    rw [refound]
    have bodies := unseen body again found refound
    rw [← bodies.parseBody_eq (spaced.child (only_body again refound).2)] at parsed
    exact parsed
  · rw [if_neg envelope] at unseen
    rw [if_pos envelope] at parsed ⊢
    split at parsed
    · cases parsed
    · rw [if_neg ‹_›, unseen.parseWrapper_eq spaced]
      exact parsed

theorem DocumentUnseen.parseDocument_eq {nodes others : List Node}
    (spaced : Inserted Node.IsText Spaced nodes others)
    (unseen : DocumentUnseen convert nodes others state)
    (parsed : parseDocument convert depth nodes state = some after) :
    parseDocument convert depth others state = some after := by
  obtain ⟨root, again, rfl, rfl, unseen⟩ := unseen
  obtain ⟨⟩ | ⟨alike, _⟩ := spaced.forall₂ rfl
  rw [parseDocument] at parsed ⊢
  rw [alike.skipped]
  split at parsed
  · cases parsed
  · rw [if_neg ‹_›]
    exact unseen.parseEnvelope_eq ⟨alike, .nil⟩ parsed

/-! ### White space that changes nothing -/

theorem WrapperUnseen.of_parseWrapper (spaced : SpacedPlace place kept) (anchored : place.Anchored)
    (parsed : parseWrapper convert depth place state = some after)
    (reparsed : parseWrapper convert other kept state = some last)
    (same : last.parameters = after.parameters) : WrapperUnseen convert place kept state := by
  rw [parseWrapper] at parsed reparsed
  rw [enterWrapper_spaced spaced.node, spaced.node.localName] at reparsed
  obtain ⟨entered, enters, parsed⟩ := Option.bind_eq_some_iff.1 parsed
  obtain ⟨entered', enters', reparsed⟩ := Option.bind_eq_some_iff.1 reparsed
  cases enters.symm.trans enters'
  obtain ⟨⟨objects, final⟩, all, pair⟩ := Option.bind_eq_some_iff.1 parsed
  obtain ⟨⟨objects', final'⟩, all', pair'⟩ := Option.bind_eq_some_iff.1 reparsed
  cases pair
  cases pair'
  obtain rfl := List.append_cancel_left same
  exact ⟨entered, final, enters, (Unseen.of_parseAll (parameterPlaces_spaced spaced)
    (anchored_parameterPlaces anchored) all all').1⟩

theorem BodyUnseen.of_parseBody (spaced : SpacedPlace place kept) (anchored : place.Anchored)
    (parsed : parseBody convert depth place state = some after)
    (reparsed : parseBody convert other kept state = some last)
    (same : last.parameters = after.parameters) : BodyUnseen convert place kept state := by
  rw [parseBody] at parsed reparsed
  rw [declaring_spaced spaced.node] at reparsed
  have style : (state.declaring place.node).style = state.style := rfl
  simp only [style] at parsed reparsed
  rw [BodyUnseen]
  cases shown : state.style with
  | rpc =>
      rw [shown] at parsed reparsed
      obtain ⟨wrapper, first, parsed⟩ := Option.bind_eq_some_iff.1 parsed
      obtain ⟨again, first', reparsed⟩ := Option.bind_eq_some_iff.1 reparsed
      have wrappers := spaced.node.firstChild
      rw [first, first'] at wrappers
      obtain ⟨alike⟩ := wrappers
      have among := (List.dropWhile_sublist _).subset (List.mem_of_mem_head? first)
      exact ⟨wrapper, again, first, first', WrapperUnseen.of_parseWrapper (spaced.child alike)
        (anchored.child among) parsed reparsed same⟩
  | document =>
      rw [shown] at parsed reparsed
      simp only [enterDocument_spaced spaced.node] at reparsed
      obtain ⟨⟨objects, final⟩, all, pair⟩ := Option.bind_eq_some_iff.1 parsed
      obtain ⟨⟨objects', final'⟩, all', pair'⟩ := Option.bind_eq_some_iff.1 reparsed
      cases pair
      cases pair'
      obtain rfl := List.append_cancel_left same
      exact ⟨final, (Unseen.of_parseAll (elements_spaced spaced)
        (anchored_elements anchored) all all').1⟩

theorem EnvelopeUnseen.of_parseEnvelope (spaced : SpacedPlace place kept)
    (anchored : place.Anchored) (parsed : parseEnvelope convert depth place state = some after)
    (reparsed : parseEnvelope convert other kept state = some last)
    (same : last.parameters = after.parameters) : EnvelopeUnseen convert place kept state := by
  rw [parseEnvelope] at parsed reparsed
  rw [declaring_spaced spaced.node, spaced.node.localName] at reparsed
  rw [EnvelopeUnseen]
  by_cases envelope : place.node.localName = text "Envelope"
  · rw [if_pos envelope]
    rw [if_neg (not_not_intro envelope)] at parsed reparsed
    obtain ⟨body, found, parsed⟩ := Option.bind_eq_some_iff.1 parsed
    obtain ⟨again, refound, reparsed⟩ := Option.bind_eq_some_iff.1 reparsed
    obtain ⟨sameBody, alike⟩ := (envelopeBody_spaced spaced.node found).2 again refound
    refine ⟨sameBody, fun body' again' found' refound' => ?_⟩
    cases found.symm.trans found'
    cases refound.symm.trans refound'
    exact .of_parseBody (spaced.child alike) (anchored.child (envelopeBody_mem found))
      parsed reparsed same
  · rw [if_neg envelope]
    rw [if_pos envelope] at parsed reparsed
    split at parsed
    · cases parsed
    · rw [if_neg ‹_›] at reparsed
      exact .of_parseWrapper spaced anchored parsed reparsed same

theorem root_of_parseDocument {nodes : List Node}
    (parsed : parseDocument convert depth nodes state = some after) :
    ∃ root, nodes = [root] ∧ parseEnvelope convert depth ⟨root, []⟩ state = some after := by
  cases nodes with
  | nil => cases parsed
  | cons root rest =>
      cases rest with
      | nil =>
          rw [parseDocument] at parsed
          split at parsed
          · cases parsed
          · exact ⟨root, rfl, parsed⟩
      | cons => cases parsed

theorem DocumentUnseen.of_parseDocument {nodes others : List Node}
    (spaced : Inserted Node.IsText Spaced nodes others) (anchored : anchoredAll nodes)
    (parsed : parseDocument convert depth nodes state = some after)
    (reparsed : parseDocument convert other others state = some last)
    (same : last.parameters = after.parameters) : DocumentUnseen convert nodes others state := by
  obtain ⟨root, rfl, first⟩ := root_of_parseDocument parsed
  obtain ⟨again, rfl, second⟩ := root_of_parseDocument reparsed
  obtain ⟨⟩ | ⟨alike, _⟩ := spaced.forall₂ rfl
  have around : Place.Anchored ⟨root, []⟩ := by
    intro node among
    rw [List.mem_singleton.1 among]
    exact anchored_of_mem anchored List.mem_cons_self
  exact ⟨root, again, rfl, rfl, .of_parseEnvelope ⟨alike, .nil⟩ around first second same⟩

/-! ## Loading -/

variable (convert) (fromUtf8 : Text → Option Text)

/-- `Load_Payload` gives a payload for a document. -/
def Loads (document : List Content) (envelope : Bool) (schema : Definition)
    (payload : Payload V) : Prop :=
  ∃ depth, loadPayload convert fromUtf8 depth document envelope schema = some payload

/-- White space of the second document is not seen when it is loaded. -/
def Unnoticed (document kept : List Content) (envelope : Bool) (schema : Definition) : Prop :=
  ∃ style, schema.getBindingStyle = some style ∧
    DocumentUnseen convert (readDocument fromUtf8 document) (readDocument fromUtf8 kept)
      { strict := envelope, style, schema }

variable {convert fromUtf8} {document padding : List Content} {envelope : Bool}
    {schema : Definition} {payload : Payload V}

theorem loadPayload_cases {depth : Nat}
    (loaded : loadPayload convert fromUtf8 depth document envelope schema = some payload) :
    ∃ style final, schema.getBindingStyle = some style ∧
      parseDocument convert depth (readDocument fromUtf8 document)
        { strict := envelope, style, schema } = some final ∧
      build final.wrapperName final.parameters final.nameSpace = some payload := by
  obtain ⟨style, shown, rest⟩ := Option.bind_eq_some_iff.1 loaded
  obtain ⟨final, parsed, built⟩ := Option.bind_eq_some_iff.1 rest
  exact ⟨style, final, shown, parsed, built⟩

theorem parameters_of_build {procedureName : Text} {pSet : List (Object V)} {nameSpace : NameSpace}
    (built : build procedureName pSet nameSpace = some payload) : payload.parameters = pSet := by
  obtain ⟨users, _, made⟩ := Option.bind_eq_some_iff.1 built
  cases made
  rfl

/-- A document with white space and comments between its elements is loaded as the one without them
if the white space is not seen.  If no reference is a sign alone and no element with an identifier
refers on, it is loaded so only then. -/
theorem loads_padded_iff (padded : Padded document padding)
    (loads : Loads convert fromUtf8 document envelope schema payload) :
    (Unnoticed convert fromUtf8 document padding envelope schema →
      Loads convert fromUtf8 padding envelope schema payload) ∧
    (anchoredAll (readDocument fromUtf8 document) →
      (Loads convert fromUtf8 padding envelope schema payload ↔
        Unnoticed convert fromUtf8 document padding envelope schema)) := by
  obtain ⟨depth, loaded⟩ := loads
  obtain ⟨style, final, shown, parsed, built⟩ := loadPayload_cases loaded
  have unseen : Unnoticed convert fromUtf8 document padding envelope schema →
      Loads convert fromUtf8 padding envelope schema payload := by
    rintro ⟨style', shown', unseen⟩
    cases shown.symm.trans shown'
    refine ⟨depth, ?_⟩
    rw [loadPayload, shown]
    simp only [Option.bind_eq_bind, Option.bind_some]
    rw [unseen.parseDocument_eq padded.readDocument parsed]
    exact built
  refine ⟨unseen, fun anchored => ⟨?_, unseen⟩⟩
  rintro ⟨other, reloaded⟩
  obtain ⟨style', final', shown', reparsed, rebuilt⟩ := loadPayload_cases reloaded
  cases shown.symm.trans shown'
  have same : final'.parameters = final.parameters := by
    rw [← parameters_of_build built, ← parameters_of_build rebuilt]
  exact ⟨style, shown, .of_parseDocument padded.readDocument anchored parsed reparsed same⟩

end Messages

/-! ### A message -/

/-- A call of `hello` with white space beside its body and beside its wrapper. -/
def greeting (beside within : List Content) : List Content :=
  let name := Content.element (text "name") [⟨text "xsi:type", text "xsd:string"⟩]
    [.characters (text "Bob")]
  let hello := Content.element (text "hello") [] [name]
  let body := Content.element (text "soapenv:Body") [] (within ++ hello :: within)
  [.element (text "soapenv:Envelope") [] (beside ++ body :: beside)]

/-- The payload of the call. -/
def greeted : Payload Text :=
  ⟨.none, text "hello", [.simple .string (text "Bob") (text "name") (text "xsd:string") .none], []⟩

/-- A blank between elements. -/
def blank : List Content := [.ignorableWhitespace [32]]

theorem insignificant_blank : ∀ part ∈ blank, Insignificant part := by
  intro part among
  rw [List.mem_singleton.1 among]
  refine .ignorableWhitespace ⟨List.cons_ne_nil _ _, fun c member => ?_⟩
  exact .inl (List.mem_singleton.1 member)

theorem padded_greeting {beside within : List Content}
    (insignificant : ∀ part ∈ beside, Insignificant part)
    (insignificant' : ∀ part ∈ within, Insignificant part) :
    Padded (greeting [] []) (greeting beside within) := by
  have leaf : Padded [.characters (text "Bob")] [.characters (text "Bob")] := .keep not_false .nil
  have name := Padded.element (text "name") [⟨text "xsi:type", text "xsd:string"⟩]
    leaf (absurd rfl) .nil
  have hello := Padded.element (text "hello") [] name (absurd rfl)
    (by simpa using Padded.insert_all insignificant' .nil)
  have body := Padded.element (text "soapenv:Body") [] (Padded.insert_all insignificant' hello)
    (fun _ => .singleton trivial) (by simpa using Padded.insert_all insignificant .nil)
  exact .element _ _ (Padded.insert_all insignificant body) (fun _ => .singleton trivial) .nil

/-- White space beside the wrapper is not seen. -/
theorem unnoticed_in_body :
    Unnoticed (fun _ read => some read) some (greeting [] []) (greeting [] blank) true [] :=
  ((loads_padded_iff (padded_greeting (by rintro _ ⟨⟩) insignificant_blank)
    ⟨1, show loadPayload (fun _ read => some read) some 1 (greeting [] []) true [] =
      some greeted from rfl⟩).2 (by decide +kernel)).1 ⟨1, rfl⟩

/-- White space beside the body makes the message one that is refused. -/
theorem refused_beside_body :
    Padded (greeting [] []) (greeting blank []) ∧
      Loads (fun _ read => some read) some (greeting [] []) true [] greeted ∧
      ¬ ∃ payload : Payload Text,
        Loads (fun _ read => some read) some (greeting blank []) true [] payload := by
  refine ⟨padded_greeting insignificant_blank (by rintro _ ⟨⟩), ⟨1, rfl⟩, ?_⟩
  rintro ⟨payload, depth, loaded⟩
  have refused : loadPayload (fun _ read => some read) some depth (greeting blank []) true [] =
    (none : Option (Payload Text)) := rfl
  rw [refused] at loaded
  cases loaded

end Soap
end AdaWebServer

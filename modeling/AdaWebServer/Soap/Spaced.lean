import AdaWebServer.Foundations.Insertion
import AdaWebServer.Soap.Payload

/-!
# White space in a message

White space and comments between the elements of a message become text nodes between the elements
of its tree, or nothing.  The trees agree in everything that passes over text nodes.
-/

namespace AdaWebServer
namespace Soap

open Http2 (Text text toLower)

/-! ## Messages -/

/-- A text of white space. -/
def White (ch : Text) : Prop := ch ≠ [] ∧ ∀ c ∈ ch, c = 32 ∨ c = 9 ∨ c = 10 ∨ c = 13

/-- White space and comments. -/
inductive Insignificant : Content → Prop
  | characters {ch : Text} (white : White ch) : Insignificant (.characters ch)
  | ignorableWhitespace {ch : Text} (white : White ch) : Insignificant (.ignorableWhitespace ch)
  | comment (ch : Text) : Insignificant (.comment ch)

def Content.IsElement : Content → Prop
  | .element .. => True
  | _ => False

/-- Content that consists of elements. -/
def ElementContent (content : List Content) : Prop :=
  (∃ part ∈ content, part.IsElement) ∧ ∀ part ∈ content, part.IsElement ∨ Insignificant part

/-- The second message is the first one with white space and comments between its elements. -/
inductive Padded : List Content → List Content → Prop
  | nil : Padded [] []
  | insert {part : Content} {parts padded : List Content} (insignificant : Insignificant part)
      (rest : Padded parts padded) : Padded parts (part :: padded)
  | keep {part : Content} {parts padded : List Content} (leaf : ¬ part.IsElement)
      (rest : Padded parts padded) : Padded (part :: parts) (part :: padded)
  | element (name : Text) (atts : List Attribute) {content inside parts padded : List Content}
      (within : Padded content inside) (between : inside ≠ content → ElementContent content)
      (rest : Padded parts padded) :
      Padded (.element name atts content :: parts) (.element name atts inside :: padded)

theorem ElementContent.singleton {part : Content} (element : part.IsElement) :
    ElementContent [part] :=
  ⟨⟨part, List.mem_cons_self, element⟩, fun _ among => .inl (List.mem_singleton.1 among ▸ element)⟩

theorem Padded.insert_all {blanks parts padded : List Content}
    (insignificant : ∀ part ∈ blanks, Insignificant part) (rest : Padded parts padded) :
    Padded parts (blanks ++ padded) := by
  induction blanks with
  | nil => exact rest
  | cons part blanks ih =>
      exact .insert (insignificant part List.mem_cons_self)
        (ih fun other among => insignificant other (List.mem_cons_of_mem _ among))

/-! ## Trees -/

def Node.IsText (node : Node) : Prop := node.nodeType = .text

/-- The second tree is the first one with text nodes in its elements, unless these are empty. -/
inductive Spaced : Node → Node → Prop
  | text (data : Text) : Spaced (.text data) (.text data)
  | comment (data : Text) : Spaced (.comment data) (.comment data)
  | element (name : Text) (atts : List Attribute) {children padded : List Node}
      (empty : children = [] → padded = [])
        (inserted : Inserted Node.IsText Spaced children padded) :
      Spaced (.element name atts children) (.element name atts padded)

theorem Node.IsText.attributes {node : Node} (text : node.IsText) : node.attributes = [] := by
  cases node with
  | element => cases text
  | text data => rfl
  | comment data => rfl

theorem Node.IsText.skipped {node : Node} (text : node.IsText) : node.skipped = true := by
  simp [Node.skipped, show node.nodeType = .text from text]

namespace Spaced

variable {node kept : Node}

theorem attributes (spaced : Spaced node kept) : kept.attributes = node.attributes := by
  cases spaced <;> rfl

theorem localName (spaced : Spaced node kept) : kept.localName = node.localName := by
  cases spaced <;> rfl

theorem nodeName (spaced : Spaced node kept) : kept.nodeName = node.nodeName := by
  cases spaced <;> rfl

theorem namePrefix (spaced : Spaced node kept) : kept.namePrefix = node.namePrefix := by
  cases spaced <;> rfl

theorem nodeType (spaced : Spaced node kept) : kept.nodeType = node.nodeType := by
  cases spaced <;> rfl

theorem skipped (spaced : Spaced node kept) : kept.skipped = node.skipped := by
  rw [Node.skipped, Node.skipped, spaced.nodeType]

theorem getAttrValue (spaced : Spaced node kept) (name : Text) :
    getAttrValue kept name = getAttrValue node name := by
  rw [Soap.getAttrValue, Soap.getAttrValue, spaced.attributes]

theorem parseNamespaces (spaced : Spaced node kept) (ns : Namespaces) :
    parseNamespaces kept ns = parseNamespaces node ns := by
  rw [Soap.parseNamespaces, Soap.parseNamespaces, spaced.attributes]

theorem children (spaced : Spaced node kept) :
    Inserted Node.IsText Spaced node.children kept.children := by
  cases spaced with
  | text data => exact .nil
  | comment data => exact .nil
  | element name atts _ inserted => exact inserted

theorem children_eq_nil (spaced : Spaced node kept) : kept.children = [] ↔ node.children = [] := by
  constructor
  · intro empty
    have shorter := spaced.children.length_le
    rw [empty] at shorter
    exact List.eq_nil_of_length_eq_zero (Nat.le_zero.1 shorter)
  · intro empty
    cases spaced with
    | text data => rfl
    | comment data => rfl
    | element name atts still _ => exact still empty

theorem fromFirstChild (spaced : Spaced node kept) :
    Inserted Node.IsText Spaced (fromFirstChild node) (fromFirstChild kept) :=
  spaced.children.dropWhile (fun _ => Node.IsText.skipped) fun _ _ => skipped

theorem firstChild (spaced : Spaced node kept) :
    Option.Rel Spaced (Soap.fromFirstChild node).head? (Soap.fromFirstChild kept).head? :=
  spaced.children.head?_dropWhile (fun _ => Node.IsText.skipped) fun _ _ => skipped

theorem elementsOf (spaced : Spaced node kept) :
    List.Forall₂ Spaced (elementsOf node) (elementsOf kept) :=
  spaced.children.filter (fun _ fresh => by rw [fresh.skipped, Bool.not_true]) fun _ _ alike => by
    rw [alike.skipped]

end Spaced

/-! ## Reading a message -/

section Reader

variable {fromUtf8 : Text → Option Text}

theorem text_readPart {part : Content} (leaf : ¬ part.IsElement) :
    ∀ node ∈ readPart fromUtf8 part, ∃ data, node = .text data := by
  intro node among
  cases part with
  | element => exact absurd trivial leaf
  | characters ch =>
      rw [readPart, List.mem_singleton] at among
      exact ⟨_, among⟩
  | ignorableWhitespace ch =>
      rw [readPart] at among
      cases ch with
      | nil => cases among
      | cons first rest =>
          rw [ignorableWhitespace] at among
          split at among
          · exact ⟨_, List.mem_singleton.1 among⟩
          · cases among
  | comment ch =>
      rw [readPart] at among
      cases among

theorem Insignificant.not_isElement {part : Content} (insignificant : Insignificant part) :
    ¬ part.IsElement := by
  cases insignificant <;> exact not_false

theorem insert_texts {nodes children padded : List Node}
    (texts : ∀ node ∈ nodes, ∃ data, node = .text data)
    (rest : Inserted Node.IsText Spaced children padded) :
    Inserted Node.IsText Spaced children (nodes ++ padded) := by
  induction nodes with
  | nil => exact rest
  | cons node nodes ih =>
      obtain ⟨data, rfl⟩ := texts node List.mem_cons_self
      exact .new rfl (ih fun other among => texts other (List.mem_cons_of_mem _ among))

theorem keep_texts {nodes children padded : List Node}
    (texts : ∀ node ∈ nodes, ∃ data, node = .text data)
    (rest : Inserted Node.IsText Spaced children padded) :
    Inserted Node.IsText Spaced (nodes ++ children) (nodes ++ padded) := by
  induction nodes with
  | nil => exact rest
  | cons node nodes ih =>
      obtain ⟨data, rfl⟩ := texts node List.mem_cons_self
      exact .same (.text data) (ih fun other among => texts other (List.mem_cons_of_mem _ among))

theorem readPart_eq_nil {content : List Content} {part : Content}
    (nothing : readContent fromUtf8 content = [])
    (among : part ∈ content) : readPart fromUtf8 part = [] := by
  induction content with
  | nil => cases among
  | cons first rest ih =>
      rw [readContent, List.append_eq_nil_iff] at nothing
      cases among with
      | head => exact nothing.1
      | tail _ among => exact ih nothing.2 among

theorem ElementContent.readContent_ne_nil {content : List Content}
    (elements : ElementContent content) :
    readContent fromUtf8 content ≠ [] := by
  intro nothing
  obtain ⟨part, among, element⟩ := elements.1
  have read := readPart_eq_nil nothing among
  cases part with
  | element name atts content =>
      rw [readPart] at read
      cases read
  | _ => exact element

/-- Nothing is put into content from which nothing is read. -/
theorem readContent_eq_nil {content inside : List Content}
    (between : inside ≠ content → ElementContent content)
    (nothing : readContent fromUtf8 content = []) :
    readContent fromUtf8 inside = [] := by
  by_cases same : inside = content
  · rw [same]
    exact nothing
  · exact absurd nothing (between same).readContent_ne_nil

/-- The children that are read from padded content. -/
theorem Padded.readContent {content inside : List Content} (padded : Padded content inside) :
    Inserted Node.IsText Spaced (readContent fromUtf8 content) (readContent fromUtf8 inside) := by
  induction padded with
  | nil => exact .nil
  | insert insignificant _ ih =>
      rw [Soap.readContent]
      exact insert_texts (text_readPart insignificant.not_isElement) ih
  | keep leaf _ ih =>
      rw [Soap.readContent, Soap.readContent]
      exact keep_texts (text_readPart leaf) ih
  | element name atts _ between _ inside ih =>
      rw [Soap.readContent, Soap.readContent, readPart, readPart]
      exact .same (.element name atts (readContent_eq_nil between) inside) ih

theorem readDocument_cons (part : Content) (parts : List Content) :
    readDocument fromUtf8 (part :: parts) =
      readDocument fromUtf8 [part] ++ readDocument fromUtf8 parts := by
  rw [readDocument, readDocument, List.flatMap_cons, List.flatMap_singleton]
  rfl

theorem text_readDocument {part : Content} (leaf : ¬ part.IsElement) :
    ∀ node ∈ readDocument fromUtf8 [part], ∃ data, node = .text data := by
  intro node among
  rw [readDocument, List.flatMap_singleton] at among
  cases part with
  | element => exact absurd trivial leaf
  | characters ch => exact text_readPart leaf node among
  | ignorableWhitespace ch => cases among
  | comment ch => exact text_readPart leaf node among

/-- The children of the document that are read from a padded one. -/
theorem Padded.readDocument {document kept : List Content} (padded : Padded document kept) :
    Inserted Node.IsText Spaced (readDocument fromUtf8 document) (readDocument fromUtf8 kept) := by
  induction padded with
  | nil => exact .nil
  | insert insignificant _ ih =>
      rw [readDocument_cons]
      exact insert_texts (text_readDocument insignificant.not_isElement) ih
  | @keep part parts padded leaf _ ih =>
      rw [readDocument_cons part parts, readDocument_cons part padded]
      exact keep_texts (text_readDocument leaf) ih
  | @element name atts content inside parts padded within between _ _ ih =>
      rw [readDocument_cons _ parts, readDocument_cons _ padded]
      exact .same (.element name atts (readContent_eq_nil between) within.readContent) ih

end Reader

/-! ## Places -/

/-- The same place of the two trees. -/
structure SpacedPlace (place kept : Place) : Prop where
  node : Spaced place.node kept.node
  ancestors : List.Forall₂ Spaced place.ancestors kept.ancestors

mutual

/-- No reference is the sign alone, which would refer to a node without an identifier, and no
element with an identifier refers to another one. -/
def Node.anchored : Node → Bool
  | .element _ atts children =>
      (getNamedItem atts (Http2.text "href")).all (fun href =>
        href.value ≠ [35] && (getNamedItem atts (Http2.text "id")).isNone) && anchoredAll children
  | _ => true

def anchoredAll : List Node → Bool
  | [] => true
  | node :: nodes => node.anchored && anchoredAll nodes

end

theorem anchored_of_mem {nodes : List Node} (all : anchoredAll nodes) {node : Node}
    (among : node ∈ nodes) : node.anchored := by
  induction nodes with
  | nil => cases among
  | cons first rest ih =>
      rw [anchoredAll, Bool.and_eq_true] at all
      cases among with
      | head => exact all.1
      | tail _ among => exact ih all.2 among

namespace Node

variable {node : Node}

theorem anchored.href (anchored : node.anchored) {href : Attribute}
    (found : getNamedItem node.attributes (Http2.text "href") = some href) :
    href.value ≠ [35] ∧ getNamedItem node.attributes (Http2.text "id") = none := by
  cases node with
  | element name atts children =>
      rw [Node.anchored, Bool.and_eq_true] at anchored
      rw [show getNamedItem atts (Http2.text "href") = some href from found] at anchored
      rw [show (Node.element name atts children).attributes = atts from rfl]
      simpa using anchored.1
  | text data => cases found
  | comment data => cases found

theorem anchored.child (anchored : node.anchored) {child : Node} (among : child ∈ node.children) :
    child.anchored := by
  cases node with
  | element name atts children =>
      rw [Node.anchored, Bool.and_eq_true] at anchored
      exact anchored_of_mem anchored.2 among
  | text data => cases among
  | comment data => cases among

end Node

namespace Place

variable {place kept found : Place}

/-- No reference at the place, in it or around it is the sign alone. -/
def Anchored (place : Place) : Prop := ∀ node ∈ place.node :: place.ancestors, node.anchored

theorem Anchored.child (anchored : place.Anchored) {node : Node}
    (among : node ∈ place.node.children) :
    (place.child node).Anchored := by
  intro other member
  cases member with
  | head => exact Node.anchored.child (anchored _ List.mem_cons_self) among
  | tail _ member => exact anchored other member

theorem Anchored.fields (anchored : place.Anchored) : ∀ field ∈ place.fields, field.Anchored := by
  intro field among
  obtain ⟨node, member, rfl⟩ := List.mem_map.1 among
  exact anchored.child (List.dropWhile_sublist _ |>.subset member)

theorem bodyNode_suffix {node : Node} {ancestors : List Node}
    (body : bodyNode node ancestors = some found) :
    found.node :: found.ancestors <:+ node :: ancestors := by
  induction ancestors generalizing node with
  | nil =>
      rw [bodyNode] at body
      split at body
      · obtain rfl := Option.some.inj body
        exact List.suffix_rfl
      · cases body
  | cons parent rest ih =>
      rw [bodyNode] at body
      split at body
      · obtain rfl := Option.some.inj body
        exact List.suffix_rfl
      · exact (ih body).trans (List.suffix_cons _ _)

theorem Anchored.getRef (anchored : place.Anchored) (ref : place.getRef = some found) :
    found.Anchored := by
  rw [Place.getRef] at ref
  split at ref
  · rwa [← Option.some.inj ref]
  · obtain ⟨body, climbed, ref⟩ := Option.bind_eq_some_iff.1 ref
    obtain ⟨node, searched, ref⟩ := Option.bind_eq_some_iff.1 ref
    rw [← Option.some.inj ref]
    have around : body.Anchored := fun node among =>
      anchored node ((bodyNode_suffix climbed).subset among)
    exact around.child ((List.dropWhile_sublist _).subset (List.mem_of_find?_eq_some searched))

theorem Anchored.getRef_getRef (anchored : place.Anchored) (ref : place.getRef = some found) :
    found.getRef = some found := by
  rw [Place.getRef] at ref
  split at ref
  · rename_i unreferring
    obtain rfl := Option.some.inj ref
    rw [Place.getRef, unreferring]
  · rename_i href referring
    obtain ⟨sharp, _⟩ := Node.anchored.href (anchored _ List.mem_cons_self) referring
    obtain ⟨body, climbed, ref⟩ := Option.bind_eq_some_iff.1 ref
    obtain ⟨node, searched, ref⟩ := Option.bind_eq_some_iff.1 ref
    obtain rfl := Option.some.inj ref
    have around : body.Anchored := fun node among =>
      anchored node ((bodyNode_suffix climbed).subset among)
    have child := around.child ((List.dropWhile_sublist _).subset
      (List.mem_of_find?_eq_some searched))
    rw [Place.getRef]
    split
    · rfl
    · rename_i onward found
      have named := List.find?_some searched
      obtain ⟨_, unnamed⟩ := Node.anchored.href (child _ List.mem_cons_self) found
      rw [Place.hasId, decide_eq_true_eq, getAttrValue, show getNamedItem node.attributes _ =
        none from unnamed] at named
      exact absurd named.symm sharp

end Place

namespace SpacedPlace

variable {place kept : Place}

theorem child (spaced : SpacedPlace place kept) {node padded : Node} (alike : Spaced node padded) :
    SpacedPlace (place.child node) (kept.child padded) :=
  ⟨alike, .cons spaced.node spaced.ancestors⟩

theorem map_child (spaced : SpacedPlace place kept) {nodes padded : List Node}
    (alike : List.Forall₂ Spaced nodes padded) :
    List.Forall₂ SpacedPlace (nodes.map place.child) (padded.map kept.child) := by
  rw [List.forall₂_map_left_iff, List.forall₂_map_right_iff]
  exact alike.imp fun _ _ => spaced.child

theorem bodyNode {node padded : Node} {ancestors others : List Node} (alike : Spaced node padded)
    (around : List.Forall₂ Spaced ancestors others) :
    Option.Rel SpacedPlace (Place.bodyNode node ancestors) (Place.bodyNode padded others) := by
  induction around generalizing node padded with
  | nil =>
      rw [Place.bodyNode, Place.bodyNode, alike.localName]
      split
      · exact .some ⟨alike, .nil⟩
      · exact .none
  | cons parent rest ih =>
      rw [Place.bodyNode, Place.bodyNode, alike.localName]
      split
      · exact .some ⟨alike, .cons parent rest⟩
      · exact ih parent

theorem getRef (spaced : SpacedPlace place kept) (anchored : place.node.anchored) :
    Option.Rel SpacedPlace place.getRef kept.getRef := by
  rw [Place.getRef, Place.getRef, spaced.node.attributes]
  split
  · exact .some spaced
  · rename_i href found
    have misses : ∀ node : Node, node.IsText → Place.hasId href.value node = false := by
      intro node text
      have unnamed : getAttrValue node (Http2.text "id") = [] := by
        rw [getAttrValue, text.attributes]
        rfl
      rw [Place.hasId, unnamed]
      exact decide_eq_false (Node.anchored.href anchored found).1.symm
    have agrees : ∀ node padded : Node, Spaced node padded →
        Place.hasId href.value padded = Place.hasId href.value node := by
      intro node padded alike
      rw [Place.hasId, Place.hasId, alike.getAttrValue]
    have bodies := bodyNode spaced.node spaced.ancestors
    revert bodies
    generalize Place.bodyNode _ _ = first
    generalize Place.bodyNode _ _ = second
    rintro (body | _)
    · have searched := body.node.fromFirstChild.find? misses agrees
      simp only [Option.bind_eq_bind, Option.bind_some]
      revert searched
      generalize List.find? _ _ = first
      generalize List.find? _ _ = second
      rintro (alike | _)
      · exact .some (body.child alike)
      · exact .none
    · exact .none

end SpacedPlace

end Soap
end AdaWebServer

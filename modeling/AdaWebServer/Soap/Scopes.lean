import AdaWebServer.Soap.Payload

/-!
# Name spaces in their scopes

The parser keeps the name spaces that are declared in one table, in the order in which the elements
are read: the first ten of users, and the last one for each standard name space.  A prefix belongs
to the innermost element around it that declares it.
-/

namespace AdaWebServer
namespace Soap

open Http2 (Text text)

/-! ## Declarations -/

/-- The URLs of the four name spaces that have a field of their own. -/
def standardUrls : List Text :=
  [Namespaces.alternateXsdUrl, NameSpace.xsdUrl, Namespaces.alternateXsiUrl, NameSpace.xsiUrl,
    NameSpace.soapencUrl, NameSpace.soapenvUrl]

/-- The name space that an attribute declares, where it is one of the users. -/
def userDeclaration (att : Attribute) : Option NameSpace :=
  if nameSpaceOf att.name = text "xmlns" ∧ att.value ∉ standardUrls then
    some (.create (noNS att.name) att.value)
  else none

def userDeclarations (node : Node) : List NameSpace := node.attributes.filterMap userDeclaration

/-- The table when elements have been read. -/
def tableOf (read : List Node) : Namespaces :=
  read.foldl (fun ns node => parseNamespaces node ns) {}

/-- The URL that the first declaration of a prefix gives it, among the first ten of users in the
elements that have been read. -/
def firstUrl (read : List Node) (ns : Text) : Text :=
  (((read.flatMap userDeclarations).take Namespaces.maxNameSpace).find? (·.name = ns)).elim []
    NameSpace.value

/-- The URL that an element declares for a prefix. -/
def declaredUrl (ns : Text) (node : Node) : Option Text :=
  (getNamedItem node.attributes (text "xmlns:" ++ ns)).map Attribute.value

/-- The URL of the innermost declaration around an element. -/
def urlAt (place : Place) (ns : Text) : Option Text :=
  (place.node :: place.ancestors).findSome? (declaredUrl ns)

/-- The same for the name spaces of users, empty where there is none. -/
def userUrlAt (place : Place) (ns : Text) : Text :=
  match urlAt place ns with
  | none => []
  | some url => if url ∈ standardUrls then [] else url

/-- The other name of a type that a schema has under a URL. -/
def renamedUnder (schema : Definition) (typeName url : Text) : Option Text :=
  (schema.lookup url).bind fun renamed => schema.lookup (withNS renamed typeName)

/-- The first URL of the prefix of a type under which a schema has another name of the type. -/
def renamingUrl (schema : Definition) (typeName : Text) (user : List NameSpace) : Option Text :=
  (user.find? fun space => space.name = nameSpaceOf typeName ∧
    (renamedUnder schema typeName space.value).isSome).map NameSpace.value

/-- The URL of the innermost declaration of that prefix around an element, where it is one of users
under which the schema has another name of the type. -/
def renamingUrlAt (schema : Definition) (typeName : Text) (place : Place) : Option Text :=
  (urlAt place (nameSpaceOf typeName)).filter fun url =>
    url ∉ standardUrls ∧ (renamedUnder schema typeName url).isSome

/-! ## Standard name spaces -/

/-- The standard name spaces by whose prefixes names are recognised. -/
inductive Standard where
  | xsd
  | xsi
  | enc
  deriving DecidableEq

namespace Standard

def urls : Standard → List Text
  | xsd => [Namespaces.alternateXsdUrl, NameSpace.xsdUrl]
  | xsi => [Namespaces.alternateXsiUrl, NameSpace.xsiUrl]
  | enc => [NameSpace.soapencUrl]

/-- The URLs under which `Is_Schema` looks for the names that a schema has for the name space. -/
def schemaUrls : Standard → List Text
  | xsd => [NameSpace.xsdUrl, NameSpace.xsdUrlDraft2000, NameSpace.xsdUrlDraft1999]
  | xsi => []
  | enc => [NameSpace.soapencUrl]

/-- The field of the table for the name space. -/
def field (ns : Namespaces) : Standard → NameSpace
  | xsd => ns.xsd
  | xsi => ns.xsi
  | enc => ns.enc

/-- An attribute declares the name space. -/
def Declares (standard : Standard) (att : Attribute) : Prop :=
  nameSpaceOf att.name = text "xmlns" ∧ att.value ∈ standard.urls

instance (standard : Standard) : DecidablePred standard.Declares := fun _ =>
  inferInstanceAs (Decidable (_ ∧ _))

/-- The prefix in the last declaration of the name space among the elements that have been read, or
the one that it has from the start. -/
def lastPrefix (standard : Standard) (read : List Node) : Text :=
  (((read.flatMap Node.attributes).filter fun att => standard.Declares att).getLast?.map
    fun att => noNS att.name).getD (standard.field {}).name

/-- A prefix stands for the name space at an element: its innermost declaration has one of the
URLs; or it is the one that the name space has from the start, and no element around declares
either. -/
def Bound (standard : Standard) (place : Place) (ns : Text) : Prop :=
  match urlAt place ns with
  | some url => url ∈ standard.urls
  | none =>
      ns = (standard.field {}).name ∧
        ∀ node ∈ place.node :: place.ancestors, ∀ att ∈ node.attributes, ¬standard.Declares att

/-- A schema itself gives the name space the prefix of a type, as `Is_Schema` finds out. -/
def Named (standard : Standard) (schema : Definition) (typeName : Text) : Prop :=
  ∃ url ∈ standard.schemaUrls, isSchema schema typeName typeName url = true

end Standard

/-! ## The table -/

/-- A list that grows up to a length. -/
theorem foldl_append_bounded {α : Type} (bound : Nat) (items table : List α)
    (fits : table.length ≤ bound) :
    items.foldl (fun table item => if table.length < bound then table ++ [item] else table) table =
      (table ++ items).take bound := by
  induction items generalizing table with
  | nil => rw [List.foldl_nil, List.append_nil, List.take_of_length_le fits]
  | cons item items induction =>
      rw [List.foldl_cons]
      split_ifs with room
      · rw [induction _ (by rw [List.length_append, List.length_singleton]; exact room),
          List.append_assoc, List.singleton_append]
      · have full : table.length = bound := Nat.le_antisymm fits (Nat.le_of_not_lt room)
        rw [induction _ fits, ← full, List.take_left, List.take_left]

/-- The users' part of a turn of `Parse_Namespaces`. -/
theorem user_declared (ns : Namespaces) (att : Attribute) :
    (ns.declared att).user = (userDeclaration att).elim ns.user fun space =>
      if ns.user.length < Namespaces.maxNameSpace then ns.user ++ [space] else ns.user := by
  by_cases declares : nameSpaceOf att.name = text "xmlns"
  · by_cases standard : att.value ∈ standardUrls
    · have none_there : userDeclaration att = none := if_neg fun both => both.2 standard
      rw [none_there, Option.elim_none, Namespaces.declared, if_pos declares]
      simp only [standardUrls, List.mem_cons, List.not_mem_nil, or_false] at standard
      split_ifs with xsd xsi enc env room
      · rfl
      · rfl
      · rfl
      · rfl
      · grind
      · rfl
    · have declared : userDeclaration att = some (.create (noNS att.name) att.value) :=
        if_pos ⟨declares, standard⟩
      rw [declared, Option.elim_some, Namespaces.declared, if_pos declares]
      simp only [standardUrls, List.mem_cons, List.not_mem_nil, or_false, not_or] at standard
      obtain ⟨xsd, xsd', xsi, xsi', enc, env⟩ := standard
      rw [if_neg (not_or.mpr ⟨xsd, xsd'⟩), if_neg (not_or.mpr ⟨xsi, xsi'⟩), if_neg enc, if_neg env]
      split_ifs <;> rfl
  · have none_there : userDeclaration att = none := if_neg fun both => declares both.1
    rw [none_there, Option.elim_none, Namespaces.declared, if_neg declares]

theorem user_foldl_declared (atts : List Attribute) (ns : Namespaces) :
    (atts.foldl Namespaces.declared ns).user =
      (atts.filterMap userDeclaration).foldl (fun table space =>
        if table.length < Namespaces.maxNameSpace then table ++ [space] else table) ns.user := by
  induction atts generalizing ns with
  | nil => rfl
  | cons att atts induction =>
      rw [List.foldl_cons, induction, user_declared]
      cases declares : userDeclaration att with
      | none => rw [List.filterMap_cons_none declares, Option.elim_none]
      | some space => rw [List.filterMap_cons_some declares, Option.elim_some, List.foldl_cons]

theorem user_foldl_parseNamespaces (read : List Node) (ns : Namespaces) :
    (read.foldl (fun ns node => parseNamespaces node ns) ns).user =
      (read.flatMap userDeclarations).foldl (fun table space =>
        if table.length < Namespaces.maxNameSpace then table ++ [space] else table) ns.user := by
  induction read generalizing ns with
  | nil => rfl
  | cons node read induction =>
      rw [List.foldl_cons, induction, parseNamespaces, user_foldl_declared, List.flatMap_cons,
        List.foldl_append]
      rfl

theorem user_tableOf (read : List Node) :
    (tableOf read).user = (read.flatMap userDeclarations).take Namespaces.maxNameSpace :=
  (user_foldl_parseNamespaces read {}).trans
    (foldl_append_bounded _ (read.flatMap userDeclarations) [] (Nat.zero_le _))

theorem Standard.eq_of_mem_urls {standard other : Standard} {url : Text} (own : url ∈ standard.urls)
    (also : url ∈ other.urls) : standard = other := by
  have disjoint : ∀ standard other : Standard, standard ≠ other →
      ∀ url ∈ standard.urls, url ∉ other.urls := by
    intro standard other different
    cases standard <;> cases other <;> first | exact absurd rfl different | decide +kernel
  by_contra different
  exact disjoint standard other different url own also

/-- A turn of `Parse_Namespaces` for a standard name space. -/
theorem Standard.field_declared (standard : Standard) (ns : Namespaces) (att : Attribute) :
    standard.field (ns.declared att) =
      if standard.Declares att then .create (noNS att.name) att.value else standard.field ns := by
  rw [Namespaces.declared]
  by_cases declares : nameSpaceOf att.name = text "xmlns"
  · have xsd_iff : (att.value = Namespaces.alternateXsdUrl ∨ att.value = NameSpace.xsdUrl) ↔
        att.value ∈ Standard.xsd.urls := by
      rw [urls, List.mem_cons, List.mem_singleton]
    have xsi_iff : (att.value = Namespaces.alternateXsiUrl ∨ att.value = NameSpace.xsiUrl) ↔
        att.value ∈ Standard.xsi.urls := by
      rw [urls, List.mem_cons, List.mem_singleton]
    have enc_iff : att.value = NameSpace.soapencUrl ↔ att.value ∈ Standard.enc.urls := by
      rw [urls, List.mem_singleton]
    rw [if_pos declares]
    simp only [xsd_iff, xsi_iff, enc_iff]
    by_cases own : att.value ∈ standard.urls
    · have not_other : ∀ other, standard ≠ other → att.value ∉ other.urls :=
        fun other different also => different (eq_of_mem_urls own also)
      rw [if_pos (show standard.Declares att from ⟨declares, own⟩)]
      cases standard with
      | xsd => exact congrArg (field · .xsd) (if_pos own)
      | xsi =>
          rw [if_neg (not_other .xsd Standard.noConfusion), if_pos own]
          rfl
      | enc =>
          rw [if_neg (not_other .xsd Standard.noConfusion),
            if_neg (not_other .xsi Standard.noConfusion),
            if_pos own]
          rfl
    · rw [if_neg fun both : standard.Declares att => own both.2]
      split_ifs with xsd xsi enc
      · cases standard with
        | xsd => exact absurd xsd own
        | _ => rfl
      · cases standard with
        | xsi => exact absurd xsi own
        | _ => rfl
      · cases standard with
        | enc => exact absurd enc own
        | _ => rfl
      all_goals cases standard <;> rfl
  · rw [if_neg declares, if_neg fun both => declares both.1]

theorem Standard.name_field_foldl (standard : Standard) (atts : List Attribute) (ns : Namespaces) :
    (standard.field (atts.foldl Namespaces.declared ns)).name =
      ((atts.filter fun att => standard.Declares att).getLast?.map fun att => noNS att.name).getD
        (standard.field ns).name := by
  induction atts generalizing ns with
  | nil => rfl
  | cons att atts induction =>
      rw [List.foldl_cons, induction, field_declared]
      by_cases declares : standard.Declares att
      · rw [if_pos declares, List.filter_cons_of_pos (by simpa using declares), List.getLast?_cons]
        cases (atts.filter fun att => standard.Declares att).getLast? <;> rfl
      · rw [if_neg declares, List.filter_cons_of_neg (by simpa using declares)]

theorem Standard.name_field_tableOf (standard : Standard) (read : List Node) :
    (standard.field (tableOf read)).name = standard.lastPrefix read := by
  have flat : ∀ (read : List Node) (ns : Namespaces),
      read.foldl (fun ns node => parseNamespaces node ns) ns =
        (read.flatMap Node.attributes).foldl Namespaces.declared ns := by
    intro read
    induction read with
    | nil => exact fun _ => rfl
    | cons node read induction =>
        intro ns
        rw [List.foldl_cons, induction, List.flatMap_cons, List.foldl_append]
        rfl
  rw [tableOf, flat, name_field_foldl]
  rfl

theorem tableOf_append (read : List Node) (node : Node) :
    tableOf (read ++ [node]) = parseNamespaces node (tableOf read) := by
  rw [tableOf, List.foldl_append]
  rfl

theorem value_getNamespaceObject (read : List Node) (ns : Text) :
    ((tableOf read).getNamespaceObject ns).value = firstUrl read ns := by
  rw [Namespaces.getNamespaceObject, user_tableOf, firstUrl]
  cases (List.find? _ _ : Option NameSpace) <;> rfl

theorem getNamespaceValue_eq (read : List Node) (ns : Text) :
    (tableOf read).getNamespaceValue ns = firstUrl read ns := by
  rw [Namespaces.getNamespaceValue, user_tableOf, firstUrl]
  cases (List.find? _ _ : Option NameSpace) <;> rfl

theorem firstUrl_not_standard (read : List Node) (ns : Text) :
    firstUrl read ns = [] ∨ firstUrl read ns ∉ standardUrls := by
  rw [firstUrl]
  cases found : List.find? (·.name = ns)
      ((read.flatMap userDeclarations).take Namespaces.maxNameSpace) with
  | none => exact .inl rfl
  | some space =>
      refine .inr ?_
      have member := List.mem_of_mem_take (List.mem_of_find?_eq_some found)
      obtain ⟨node, -, of_node⟩ := List.mem_flatMap.mp member
      obtain ⟨att, -, declares⟩ := List.mem_filterMap.mp of_node
      rw [userDeclaration] at declares
      split_ifs at declares with user
      obtain rfl := Option.some.inj declares
      exact user.2

end Soap
end AdaWebServer

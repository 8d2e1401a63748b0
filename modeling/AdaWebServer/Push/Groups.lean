import AdaWebServer.Foundations.Protected
import AdaWebServer.Push.Object
import AdaWebServer.Push.Queue

/-!
# Clients and groups

Membership is kept twice: each client has the set of its groups, and each group has the table of its
members.  The operations on the tables of the groups are specified here by what a client and a group
know of each other.
-/

namespace AdaWebServer
namespace Push

open Http2 (Octets Text)
open Protected

/-! ## Tables -/

namespace Table

variable {layout : Layout} {table : Table} {key other : Text} {access : Nat}

@[simp] theorem lookup_arranged (layout : Layout) (table : Table) (key : Text) :
    (Table.arranged layout table).lookup key = table.lookup key :=
  AList.perm_lookup (layout.perm table.entries)

theorem put_ok (absent : key ∉ table) :
    table.put layout key access = .ok (Table.arranged layout (table.insert key access)) :=
  if_neg absent

theorem lookup_put (layout : Layout) (table : Table) (key other : Text) (access : Nat) :
    (Table.arranged layout (table.insert key access)).lookup other =
      if other = key then some access else table.lookup other := by
  rw [lookup_arranged]
  by_cases same : other = key
  · subst same
    rw [AList.lookup_insert, if_pos rfl]
  · rw [AList.lookup_insert_ne same, if_neg same]

theorem lookup_erase_eq (table : Table) (key other : Text) :
    (table.erase key).lookup other = if other = key then none else table.lookup other := by
  by_cases same : other = key
  · subst same
    rw [AList.lookup_erase, if_pos rfl]
  · rw [AList.lookup_erase_ne same, if_neg same]

theorem entries_ne_nil_of_lookup (found : table.lookup key = some access) : table.entries ≠ [] := by
  intro empty
  have known : key ∈ table := AList.lookup_isSome.mp (by rw [found]; rfl)
  rw [AList.mem_keys, AList.keys, empty] at known
  cases known

theorem mem_of_lookup (found : table.lookup key = some access) : key ∈ table :=
  AList.lookup_isSome.mp (by rw [found]; rfl)

theorem lookup_of_mem (known : key ∈ table) : ∃ access, table.lookup key = some access :=
  Option.isSome_iff_exists.mp (AList.lookup_isSome.mpr known)

theorem erase_of_notMem (absent : key ∉ table) : table.erase key = table :=
  AList.ext (List.kerase_of_notMem_keys absent)

theorem mem_entries : (⟨key, access⟩ : Sigma fun _ : Text => Nat) ∈ table.entries ↔
    table.lookup key = some access :=
  AList.mem_lookup_iff.symm

/-- A key is neither in front of its node nor after it. -/
theorem notMem_of_split {front back : List (Sigma fun _ : Text => Nat)}
    (split : table.entries = front ++ ⟨key, access⟩ :: back) :
    key ∉ front.map Sigma.fst ∧ key ∉ back.map Sigma.fst := by
  have nodup : ((front ++ ⟨key, access⟩ :: back).map Sigma.fst).Nodup := split ▸ table.nodupKeys
  rw [List.map_append, List.map_cons, List.nodup_append] at nodup
  obtain ⟨_, later, apart⟩ := nodup
  exact ⟨fun among => apart key among key List.mem_cons_self rfl, (List.nodup_cons.mp later).1⟩

theorem lookup_of_split {front back : List (Sigma fun _ : Text => Nat)}
    (split : table.entries = front ++ ⟨key, access⟩ :: back) : table.lookup key = some access :=
  mem_entries.mp (split ▸ List.mem_append_right front List.mem_cons_self)

theorem entries_erase {front back : List (Sigma fun _ : Text => Nat)}
    (split : table.entries = front ++ ⟨key, access⟩ :: back) :
    (table.erase key).entries = front ++ back := by
  have absent := (notMem_of_split split).1
  have first : List.kerase key (⟨key, access⟩ :: back) = back := List.kerase_cons_eq rfl
  show List.kerase key table.entries = _
  rw [split, List.kerase_append_right absent, first]

/-- The cursor goes to what comes after a key. -/
theorem next_eq {front back : List (Sigma fun _ : Text => Nat)}
    (split : table.entries = front ++ ⟨key, access⟩ :: back) :
    table.next key = (back.map Sigma.fst).head? := by
  have absent := (notMem_of_split split).1
  have keys_eq : table.keys = front.map Sigma.fst ++ key :: back.map Sigma.fst := by
    show table.entries.map Sigma.fst = _
    rw [split, List.map_append, List.map_cons]
  rw [Table.next, keys_eq, List.dropWhile_append_of_pos, List.dropWhile_cons_of_neg]
  · rfl
  · simp
  · intro name among
    simp only [ne_eq, decide_not, Bool.not_eq_true', decide_eq_false_iff_not]
    rintro rfl
    exact absent among

end Table

/-! ## Tables of groups -/

/-- The access that the table of a group keeps for a client. -/
def Groups.member (groups : Groups) (name key : Text) : Option Nat :=
  (groups.lookup name).bind fun map => map.lookup key

/-- No table of a group is empty. -/
def Groups.Filled (groups : Groups) : Prop :=
  ∀ name map, groups.lookup name = some map → map.entries ≠ []

/-- A table without a client, unless it is empty then. -/
def Table.pruned (key : Text) (map : Option Table) : Option Table :=
  map.bind fun map => if (map.erase key).entries = [] then none else some (map.erase key)

theorem Groups.member_eq_some {groups : Groups} {name key : Text} {access : Nat} :
    groups.member name key = some access ↔
      ∃ map, groups.lookup name = some map ∧ map.lookup key = some access :=
  Option.bind_eq_some_iff

theorem Table.pruned_bind (key other : Text) (map : Option Table) :
    (Table.pruned key map).bind (fun map => map.lookup other) =
      if other = key then none else map.bind fun map => map.lookup other := by
  cases map with
  | none => simp [pruned]
  | some map =>
      have lookup_eq := Table.lookup_erase_eq map key other
      by_cases empty : (map.erase key).entries = []
      · have none : (map.erase key).lookup other = none := by
          rw [AList.lookup_eq_none, AList.mem_keys, AList.keys, empty]
          exact List.not_mem_nil
        rw [none] at lookup_eq
        simp only [pruned, Option.bind_some, if_pos empty, Option.bind_none]
        exact lookup_eq
      · simp only [pruned, Option.bind_some, if_neg empty]
        exact lookup_eq

namespace Object

variable {δ ε : Type} {object : Object ε} {layouts : Layouts} {name key : Text} {access : Nat}

/-- A client leaves the table of a group. -/
theorem dropMember_ok {map : Table} (found : object.groups.lookup name = some map)
    (known : key ∈ map) :
    ∃ groups, dropMember key name object = .ok () { object with groups } ∧
      ∀ other, groups.lookup other =
        if other = name then Table.pruned key (object.groups.lookup other)
        else object.groups.lookup other := by
  refine ⟨if (map.erase key).entries = [] then object.groups.erase name else
    object.groups.insert name (map.erase key), ?_, fun other => ?_⟩
  · rw [dropMember, get_bind, found]
    exact congrFun (if_pos known) object
  · by_cases same : other = name
    · subst same
      rw [if_pos rfl, found, Table.pruned, Option.bind_some]
      by_cases empty : (map.erase key).entries = []
      · rw [if_pos empty, if_pos empty, AList.lookup_erase]
      · rw [if_neg empty, if_neg empty, AList.lookup_insert]
    · rw [if_neg same]
      by_cases empty : (map.erase key).entries = []
      · rw [if_pos empty, AList.lookup_erase_ne same]
      · rw [if_neg empty, AList.lookup_insert_ne same]

/-- A client leaves the tables of several groups. -/
theorem dropMembers_ok {names : List Text} (nodup : names.Nodup)
    (known : ∀ name ∈ names, ∃ map, object.groups.lookup name = some map ∧ key ∈ map) :
    ∃ groups, names.forM (dropMember key) object = .ok () { object with groups } ∧
      ∀ other, groups.lookup other =
        if other ∈ names then Table.pruned key (object.groups.lookup other)
        else object.groups.lookup other := by
  induction names generalizing object with
  | nil => exact ⟨object.groups, rfl, fun other => (if_neg List.not_mem_nil).symm⟩
  | cons name names ih =>
      obtain ⟨apart, later⟩ := List.nodup_cons.mp nodup
      obtain ⟨map, found, member⟩ := known name List.mem_cons_self
      obtain ⟨groups, dropped, lookup_eq⟩ := dropMember_ok found member
      obtain ⟨final, ended, final_eq⟩ := @ih { object with groups } later (by
        intro other among
        obtain ⟨map, found, member⟩ := known other (List.mem_cons_of_mem name among)
        refine ⟨map, ?_, member⟩
        show groups.lookup other = some map
        rw [lookup_eq, if_neg, found]
        rintro rfl
        exact apart among)
      refine ⟨final, (forM_returned dropped).trans ended, fun other => ?_⟩
      rw [final_eq]
      show (if other ∈ names then Table.pruned key (groups.lookup other)
        else groups.lookup other) = _
      rw [lookup_eq]
      by_cases same : other = name
      · subst same
        rw [if_neg apart, if_pos rfl, if_pos List.mem_cons_self]
      · rw [if_neg same]
        simp only [List.mem_cons, same, false_or]

/-- A client joins the table of a group. -/
theorem addToGroups_ok (absent : object.groups.member name key = none) :
    ∃ groups : Groups, addToGroups layouts key access name object = .ok () { object with groups } ∧
      (∀ other another, groups.member other another =
        if other = name ∧ another = key then some access else object.groups.member other another) ∧
      (object.groups.Filled → groups.Filled) := by
  let map := (object.groups.lookup name).getD ∅
  have lookup_map : ∀ another, map.lookup another = object.groups.member name another := by
    intro another
    show ((object.groups.lookup name).getD ∅).lookup another = _
    rw [Groups.member]
    cases object.groups.lookup name with
    | none => exact AList.lookup_empty another
    | some map => rfl
  have unknown : key ∉ map := AList.lookup_eq_none.mp ((lookup_map key).trans absent)
  let joined := Table.arranged (layouts (.group name)) (map.insert key access)
  refine ⟨object.groups.insert name joined, ?_, fun other another => ?_, fun filled other map' found => ?_⟩
  · rw [addToGroups, get_bind, Table.put_ok unknown]
    rfl
  · rw [Groups.member]
    by_cases same : other = name
    · subst same
      rw [AList.lookup_insert, Option.bind_some, Table.lookup_put, lookup_map]
      simp only [true_and]
    · rw [AList.lookup_insert_ne same, if_neg fun both => same both.1, Groups.member]
  · by_cases same : other = name
    · subst same
      rw [AList.lookup_insert, Option.some_inj] at found
      rw [← found]
      refine @Table.entries_ne_nil_of_lookup _ key access ?_
      rw [Table.lookup_put, if_pos rfl]
    · rw [AList.lookup_insert_ne same] at found
      exact filled other map' found

/-- A client joins the tables of several groups. -/
theorem addToAll_ok {names : List Text} (nodup : names.Nodup)
    (absent : ∀ name ∈ names, object.groups.member name key = none) :
    ∃ groups : Groups,
      names.forM (addToGroups layouts key access) object = .ok () { object with groups } ∧
      (∀ other another, groups.member other another =
        if other ∈ names ∧ another = key then some access
        else object.groups.member other another) ∧
      (object.groups.Filled → groups.Filled) := by
  induction names generalizing object with
  | nil =>
      refine ⟨object.groups, rfl, fun other another => (if_neg ?_).symm, id⟩
      exact fun both => List.not_mem_nil both.1
  | cons name names ih =>
      obtain ⟨apart, later⟩ := List.nodup_cons.mp nodup
      obtain ⟨groups, joined, member_eq, filled⟩ := @addToGroups_ok _ _ layouts _ _ access
        (absent name List.mem_cons_self)
      obtain ⟨final, ended, final_eq, final_filled⟩ := @ih { object with groups } later (by
        intro other among
        show groups.member other key = none
        rw [member_eq, if_neg, absent other (List.mem_cons_of_mem name among)]
        rintro ⟨rfl, _⟩
        exact apart among)
      refine ⟨final, (forM_returned joined).trans ended, fun other another => ?_,
        fun full => final_filled (filled full)⟩
      refine (final_eq other another).trans ?_
      show (if other ∈ names ∧ another = key then some access else groups.member other another) = _
      rw [member_eq]
      by_cases same : other = name
      · subst same
        simp [apart]
      · simp [same]

end Object
end Push
end AdaWebServer

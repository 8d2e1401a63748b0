import AdaWebServer.Push.Groups

/-!
# The integrity of a push server

A client is in the table of a group exactly if the group is in the set of the client.  Every operation
that registers or unregisters clients, or changes their groups, keeps this.
-/

namespace AdaWebServer
namespace Push

open Http2 (Octets Text)
open Protected

/-- The exceptions that say why a request is refused. -/
def Exn.IsRefusal : Exn → Prop
  | .closed | .duplicateClientId | .constraintError .range => True
  | _ => False

namespace Object

variable {δ ε : Type} {object after : Object ε} {layouts : Layouts} {name key : Text}
  {access : Nat} {holder : ClientHolder ε}

/-- A client knows its groups, and its groups know it under the same access. -/
structure Agreeing (object : Object ε) : Prop where
  member_iff : ∀ name key access, object.groups.member name key = some access ↔
    object.container.lookup key = some access ∧
      ∃ holder, object.holders access = some holder ∧ name ∈ holder.groups
  alive : ∀ {key access}, object.container.lookup key = some access →
    ∃ holder, object.holders access = some holder ∧ holder.Orderly ∧ holder.Idle
  single : ∀ {key other access}, object.container.lookup key = some access →
    object.container.lookup other = some access → key = other
  fresh : ∀ {access}, object.allocated ≤ access → object.holders access = none
  ordered : ∀ {access holder}, object.holders access = some holder → holder.Orderly

/-- Moreover each group has members. -/
structure Consistent (object : Object ε) : Prop extends Agreeing object where
  filled : object.groups.Filled

/-- The access is not one of a client that is registered. -/
def Unregistered (object : Object ε) (access : Nat) : Prop :=
  ∀ key, object.container.lookup key ≠ some access

theorem Agreeing.congr (agreeing : object.Agreeing) (container : after.container = object.container)
    (groups : after.groups = object.groups) (holders : after.holders = object.holders)
    (allocated : after.allocated = object.allocated) : after.Agreeing where
  member_iff := by
    rw [groups, container, holders]
    exact agreeing.member_iff
  alive := by
    rw [container, holders]
    exact agreeing.alive
  single := by
    rw [container]
    exact agreeing.single
  fresh := by
    rw [allocated, holders]
    exact agreeing.fresh
  ordered := by
    rw [holders]
    exact agreeing.ordered

theorem Consistent.congr (consistent : object.Consistent)
    (container : after.container = object.container) (groups : after.groups = object.groups)
    (holders : after.holders = object.holders) (allocated : after.allocated = object.allocated) :
    after.Consistent where
  toAgreeing := consistent.toAgreeing.congr container groups holders allocated
  filled := by
    rw [groups]
    exact consistent.filled

theorem deref_ok (found : object.holders access = some holder) :
    deref access object = .ok holder object := by
  rw [deref, found]

theorem element_ok {table : Table} (found : table.lookup key = some access) :
    element table key object = .ok access object := by
  rw [element, found]
  rfl

theorem lift_ok {α : Type} (value : α) : lift (.ok value) object = .ok value object := rfl

theorem holders_setHolder (other : Nat) (holder : ClientHolder ε) :
    (object.setHolder access holder).holders other =
      if other = access then some holder else object.holders other := by
  rw [setHolder]
  exact Function.update_apply object.holders access (some holder) other

theorem holders_freed (other : Nat) :
    (object.freed access).holders other = if other = access then none else object.holders other :=
  Function.update_apply object.holders access none other

theorem ordered_setHolder {changed : ClientHolder ε}
    (ordered : ∀ {access holder}, object.holders access = some holder → holder.Orderly)
    (orderly : changed.Orderly) {other : Nat} {holder : ClientHolder ε}
    (found : (object.setHolder access changed).holders other = some holder) : holder.Orderly := by
  rw [holders_setHolder] at found
  split_ifs at found
  · cases found
    exact orderly
  · exact ordered found

/-- A holder changes, but not its groups. -/
theorem Agreeing.setHolder (agreeing : object.Agreeing) {changed : ClientHolder ε}
    (found : object.holders access = some holder) (groups : changed.groups = holder.groups)
    (orderly : changed.Orderly) (idle : ¬object.Unregistered access → changed.Idle) :
    (object.setHolder access changed).Agreeing where
  member_iff name key other := by
    refine (agreeing.member_iff name key other).trans (and_congr_right fun _ => ?_)
    rw [holders_setHolder]
    by_cases same : other = access
    · subst same
      rw [if_pos rfl, found]
      simp only [Option.some_inj, exists_eq_left', groups]
    · rw [if_neg same]
  alive {key other} registered := by
    rw [holders_setHolder]
    by_cases same : other = access
    · subst same
      rw [if_pos rfl]
      exact ⟨changed, rfl, orderly, idle fun unregistered => unregistered key registered⟩
    · rw [if_neg same]
      exact agreeing.alive registered
  single := agreeing.single
  fresh {other} large := by
    rw [holders_setHolder, if_neg]
    · exact agreeing.fresh large
    · rintro rfl
      rw [agreeing.fresh large] at found
      cases found
  ordered := ordered_setHolder agreeing.ordered orderly

theorem Consistent.setHolder (consistent : object.Consistent) {changed : ClientHolder ε}
    (found : object.holders access = some holder) (groups : changed.groups = holder.groups)
    (orderly : changed.Orderly) (idle : ¬object.Unregistered access → changed.Idle) :
    (object.setHolder access changed).Consistent where
  toAgreeing := consistent.toAgreeing.setHolder found groups orderly idle
  filled := consistent.filled

/-- The group of a client has the client. -/
theorem Agreeing.group_of_client (agreeing : object.Agreeing)
    (registered : object.container.lookup key = some access)
    (found : object.holders access = some holder) (name_mem : name ∈ holder.groups) :
    ∃ map, object.groups.lookup name = some map ∧ map.lookup key = some access :=
  Groups.member_eq_some.mp
    ((agreeing.member_iff name key access).mpr ⟨registered, holder, found, name_mem⟩)

/-- A group that is not one of the client does not have the client. -/
theorem Agreeing.notMem_of_group (agreeing : object.Agreeing)
    (registered : object.container.lookup key = some access)
    (found : object.holders access = some holder) (name_notMem : name ∉ holder.groups)
    {map : Table} (grouped : object.groups.lookup name = some map) : key ∉ map := by
  intro known
  obtain ⟨other, other_eq⟩ := Table.lookup_of_mem known
  obtain ⟨registered', holder', found', name_mem⟩ := (agreeing.member_iff name key other).mp
    (Groups.member_eq_some.mpr ⟨map, grouped, other_eq⟩)
  rw [registered, Option.some_inj] at registered'
  subst registered'
  rw [found, Option.some_inj] at found'
  subst found'
  exact name_notMem name_mem

/-! ## Leaving -/

/-- The object without a client. -/
def without (key : Text) (groups : Groups) (object : Object ε) : Object ε :=
  { object with container := object.container.erase key, groups }

/-- A client is unregistered, and leaves all groups. -/
theorem unregisterCursor_ok (consistent : object.Consistent)
    (registered : object.container.lookup key = some access) :
    ∃ groups, unregisterCursor key object = .ok () (object.without key groups) ∧
      (∀ name, groups.lookup name = Table.pruned key (object.groups.lookup name)) ∧
      (object.without key groups).Consistent := by
  obtain ⟨holder, found, _⟩ := consistent.alive registered
  obtain ⟨groups, dropped, lookup_eq⟩ := @dropMembers_ok _
    { object with container := object.container.erase key } key _ holder.groups.nodup (by
      intro name name_mem
      obtain ⟨map, grouped, known⟩ := consistent.group_of_client registered found name_mem
      exact ⟨map, grouped, Table.mem_of_lookup known⟩)
  have pruned_eq : ∀ name, groups.lookup name = Table.pruned key (object.groups.lookup name) := by
    intro name
    rw [lookup_eq]
    by_cases name_mem : name ∈ holder.groups.names
    · rw [if_pos name_mem]
    · rw [if_neg name_mem]
      show object.groups.lookup name = _
      cases grouped : object.groups.lookup name with
      | none => rfl
      | some map =>
          have absent := consistent.notMem_of_group registered found name_mem grouped
          rw [Table.pruned, Option.bind_some, Table.erase_of_notMem absent,
            if_neg (consistent.filled name map grouped)]
  refine ⟨groups, ?_, pruned_eq, ⟨⟨fun name other access' => ?_, ?_, ?_, consistent.fresh,
    consistent.ordered⟩, ?_⟩⟩
  · rw [unregisterCursor, get_bind, bind_returned (element_ok registered),
      bind_returned (deref_ok found), modify_bind]
    exact dropped
  · show groups.member name other = some access' ↔
      (object.container.erase key).lookup other = some access' ∧ _
    rw [Groups.member, pruned_eq, Table.pruned_bind, Table.lookup_erase_eq]
    by_cases same : other = key
    · rw [if_pos same, if_pos same]
      exact iff_of_false (by rintro ⟨⟩) (by rintro ⟨⟨⟩, _⟩)
    · rw [if_neg same, if_neg same]
      exact consistent.member_iff name other access'
  · intro other access' registered'
    have registered' : (object.container.erase key).lookup other = some access' := registered'
    rw [Table.lookup_erase_eq] at registered'
    split_ifs at registered'
    exact consistent.alive registered'
  · intro other another access' first second
    have first : (object.container.erase key).lookup other = some access' := first
    have second : (object.container.erase key).lookup another = some access' := second
    rw [Table.lookup_erase_eq] at first second
    split_ifs at first second
    exact consistent.single first second
  · intro name map grouped
    have grouped : groups.lookup name = some map := grouped
    rw [pruned_eq, Table.pruned, Option.bind_eq_some_iff] at grouped
    obtain ⟨_, _, grouped⟩ := grouped
    split_ifs at grouped with empty
    cases grouped
    exact empty

/-! ## Registering -/

/-- A client that is not registered is inserted, and joins its groups. -/
theorem insertClient_ok (consistent : object.Consistent) (absent : object.container.lookup key = none)
    (unregistered : object.Unregistered access) (found : object.holders access = some holder)
    (orderly : holder.Orderly) :
    ∃ container groups, insertClient layouts key access object = .ok ()
        { object.setHolder access { holder with phase := .going } with container, groups } ∧
      (∀ other, container.lookup other =
        if other = key then some access else object.container.lookup other) ∧
      Object.Consistent
        { object.setHolder access { holder with phase := .going } with container, groups } := by
  let going : ClientHolder ε := { holder with phase := .going }
  let container := Table.arranged (layouts .container) (object.container.insert key access)
  have lookup_eq := Table.lookup_put (layouts .container) object.container key
  have nobody : ∀ name, object.groups.member name key = none := by
    intro name
    rw [Option.eq_none_iff_forall_ne_some]
    intro other member
    have registered := ((consistent.member_iff name key other).mp member).1
    rw [absent] at registered
    cases registered
  obtain ⟨groups, joined, member_eq, filled⟩ := @addToAll_ok _
    { object.setHolder access going with container } layouts key access _ holder.groups.nodup fun name _ => nobody name
  refine ⟨container, groups, ?_, fun other => lookup_eq other access,
    ⟨⟨fun name other access' => ?_, ?_, ?_, ?_, ?_⟩, filled consistent.filled⟩⟩
  · have changed : onHolder access (modify fun holder => { holder with phase := .going })
        { object with container } = .ok ⟨⟩ { object.setHolder access going with container } := by
      rw [onHolder]
      dsimp only
      rw [found]
      rfl
    have there : deref access { object.setHolder access going with container } =
        .ok going { object.setHolder access going with container } :=
      deref_ok (by rw [show ({ object.setHolder access going with container } : Object ε).holders =
        (object.setHolder access going).holders from rfl, holders_setHolder, if_pos rfl])
    rw [insertClient, get_bind, Table.put_ok (AList.lookup_eq_none.mp absent),
      bind_returned (lift_ok container), modify_bind, bind_returned changed, bind_returned there]
    exact joined
  · show groups.member name other = some access' ↔ container.lookup other = some access' ∧
      ∃ holder', (object.setHolder access going).holders access' = some holder' ∧ _
    rw [member_eq, lookup_eq, holders_setHolder]
    by_cases same : other = key
    · subst same
      rw [if_pos rfl]
      by_cases name_mem : name ∈ holder.groups.names
      · rw [if_pos ⟨name_mem, rfl⟩, Option.some_inj]
        constructor
        · rintro rfl
          rw [if_pos rfl]
          exact ⟨rfl, going, rfl, name_mem⟩
        · exact And.left
      · rw [if_neg fun both => name_mem both.1]
        show object.groups.member name other = some access' ↔ _
        rw [nobody, Option.some_inj]
        refine iff_of_false nofun ?_
        rintro ⟨rfl, holder', found', name_mem'⟩
        rw [if_pos rfl, Option.some_inj] at found'
        subst found'
        exact name_mem name_mem'
    · rw [if_neg fun both => same both.2, if_neg same]
      refine (consistent.member_iff name other access').trans (and_congr_right fun registered => ?_)
      rw [if_neg]
      rintro rfl
      exact unregistered other registered
  · intro other access' registered
    have registered : container.lookup other = some access' := registered
    show ∃ holder', (object.setHolder access going).holders access' = some holder' ∧ _
    rw [lookup_eq] at registered
    rw [holders_setHolder]
    by_cases same : access' = access
    · rw [if_pos same]
      exact ⟨going, rfl, ⟨orderly.nodup, orderly.fresh, orderly.thin_iff⟩, nofun⟩
    · rw [if_neg same]
      split_ifs at registered with same_key
      · cases registered
        exact absurd rfl same
      · exact consistent.alive registered
  · intro other another access' first second
    have first : container.lookup other = some access' := first
    have second : container.lookup another = some access' := second
    rw [lookup_eq] at first second
    split_ifs at first second with first_key second_key second_key
    · rw [first_key, second_key]
    · cases first
      exact absurd second (unregistered another)
    · cases second
      exact absurd first (unregistered other)
    · exact consistent.single first second
  · intro other large
    show (object.setHolder access going).holders other = none
    rw [holders_setHolder, if_neg]
    · exact consistent.fresh large
    · rintro rfl
      rw [consistent.fresh large] at found
      cases found
  · have orderly' : going.Orderly := orderly.congr rfl rfl rfl
    exact fun {_ _} found' => ordered_setHolder consistent.ordered orderly' found'

/-! ## What operations leave -/

/-- A request is refused, and the object stays consistent. -/
def Refused (exn : Exn) (object : Object ε) : Prop := exn.IsRefusal ∧ object.Consistent

/-- The holders have at least the groups that they had. -/
def Grows (object after : Object ε) : Prop :=
  ∀ access holder, object.holders access = some holder →
    ∃ holder', after.holders access = some holder' ∧ ∀ name ∈ holder.groups, name ∈ holder'.groups

theorem Grows.refl (object : Object ε) : object.Grows object :=
  fun _ holder found => ⟨holder, found, fun _ => id⟩

theorem Grows.trans {middle : Object ε} (first : object.Grows middle)
    (second : middle.Grows after) : object.Grows after := by
  intro access holder found
  obtain ⟨holder', found', more⟩ := first access holder found
  obtain ⟨holder'', found'', more'⟩ := second access holder' found'
  exact ⟨holder'', found'', fun name among => more' name (more name among)⟩

/-- A client that is registered joins a group. -/
theorem joinGroup_ensures (consistent : object.Consistent)
    (registered : object.container.lookup key = some access) :
    Ensures (fun _ (after : Object ε) => after.Consistent ∧ after.container = object.container ∧
      object.Grows after) Refused (joinGroup layouts name key access object) := by
  obtain ⟨holder, found, orderly, idle⟩ := consistent.alive registered
  rw [joinGroup, bind_returned (deref_ok found)]
  by_cases name_mem : name ∈ holder.groups
  · rw [if_pos name_mem]
    exact ⟨consistent, rfl, .refl object⟩
  · rw [if_neg name_mem, modify_bind]
    let joining : ClientHolder ε := { holder with groups := holder.groups.insert name }
    have nobody : object.groups.member name key = none := by
      rw [Option.eq_none_iff_forall_ne_some]
      intro other member
      obtain ⟨registered', holder', found', name_mem'⟩ :=
        (consistent.member_iff name key other).mp member
      rw [registered, Option.some_inj] at registered'
      subst registered'
      rw [found, Option.some_inj] at found'
      subst found'
      exact name_mem name_mem'
    obtain ⟨groups, joined, member_eq, filled⟩ := @addToGroups_ok _
      (object.setHolder access joining) layouts _ key access nobody
    have orderly' : joining.Orderly := orderly.congr rfl rfl rfl
    rw [joined]
    refine ⟨⟨⟨fun other another access' => ?_, fun {other access'} registered' => ?_,
      consistent.single, fun {other} large => ?_,
        fun {_ _} => ordered_setHolder consistent.ordered orderly'⟩, filled consistent.filled⟩, rfl,
      fun other holder' found' => ?_⟩
    · show groups.member other another = some access' ↔ object.container.lookup another =
        some access' ∧ ∃ holder', (object.setHolder access joining).holders access' = some holder' ∧ _
      rw [member_eq, holders_setHolder]
      by_cases new : other = name ∧ another = key
      · obtain ⟨rfl, rfl⟩ := new
        rw [if_pos ⟨rfl, rfl⟩, Option.some_inj, registered, Option.some_inj]
        refine ⟨?_, And.left⟩
        rintro rfl
        rw [if_pos rfl]
        exact ⟨rfl, joining, rfl, GroupSet.mem_insert.mpr (.inl rfl)⟩
      · rw [if_neg new]
        refine (consistent.member_iff other another access').trans
          (and_congr_right fun registered' => ?_)
        by_cases same : access' = access
        · subst same
          have same_key := consistent.single registered' registered
          rw [if_pos rfl, found]
          simp only [Option.some_inj, exists_eq_left']
          rw [GroupSet.mem_insert]
          exact (or_iff_right fun same_name => new ⟨same_name, same_key⟩).symm
        · rw [if_neg same]
    · show ∃ holder', (object.setHolder access joining).holders access' = some holder' ∧ _
      rw [holders_setHolder]
      by_cases same : access' = access
      · rw [if_pos same]
        exact ⟨joining, rfl, ⟨orderly.nodup, orderly.fresh, orderly.thin_iff⟩, idle⟩
      · rw [if_neg same]
        exact consistent.alive registered'
    · show (object.setHolder access joining).holders other = none
      rw [holders_setHolder, if_neg]
      · exact consistent.fresh large
      · rintro rfl
        rw [consistent.fresh large] at found
        cases found
    · show ∃ holder', (object.setHolder access joining).holders other = some holder' ∧ _
      rw [holders_setHolder]
      by_cases same : other = access
      · subst same
        rw [found, Option.some_inj] at found'
        subst found'
        rw [if_pos rfl]
        exact ⟨joining, rfl, fun name' among => GroupSet.mem_insert.mpr (.inr among)⟩
      · rw [if_neg same]
        exact ⟨holder', found', fun _ => id⟩

/-! ## Registration -/

theorem Consistent.free (consistent : object.Consistent) (unregistered : object.Unregistered access) :
    (object.freed access).Consistent where
  member_iff name key other := by
    refine (consistent.member_iff name key other).trans (and_congr_right fun registered => ?_)
    rw [holders_freed, if_neg]
    rintro rfl
    exact unregistered key registered
  alive {key other} registered := by
    have apart : other ≠ access := by
      rintro rfl
      exact unregistered key registered
    rw [holders_freed, if_neg apart]
    exact consistent.alive registered
  single := consistent.single
  fresh {other} large := by
    rw [holders_freed]
    split_ifs
    · rfl
    · exact consistent.fresh large
  ordered {other holder} found := by
    rw [holders_freed] at found
    split_ifs at found
    exact consistent.ordered found
  filled := consistent.filled

theorem free_ok (found : object.holders access = some holder) :
    free access object = .ok () (object.freed access) := by
  rw [free, bind_returned (deref_ok found)]
  rfl

theorem register_ensures (consistent : object.Consistent) {clock duplicatedAge : Int}
    (unregistered : object.Unregistered access) (found : object.holders access = some holder)
    (orderly : holder.Orderly) :
    Ensures (fun _ => Consistent) Refused
      (register layouts clock key access duplicatedAge object) := by
  have refused : ∀ {exn : Exn}, exn.IsRefusal →
      Ensures (fun _ => Consistent) Refused
        ((do free access; throw exn : Protected ε (Option Nat)) object) := by
    intro exn refusal
    rw [bind_returned (free_ok found)]
    exact ⟨refusal, consistent.free unregistered⟩
  rw [register, get_bind]
  by_cases isOpen : object.isOpen = true
  · rw [if_pos isOpen, get_bind]
    cases there : object.container.lookup key with
    | none =>
        obtain ⟨container, groups, inserted, _, consistent'⟩ := @insertClient_ok _ _ layouts _ _ _
          consistent there unregistered found orderly
        change Ensures _ _ ((insertClient layouts key access >>= fun _ => pure none) object)
        rw [bind_returned inserted]
        exact consistent'
    | some duplicated =>
        obtain ⟨old, old_found, _⟩ := consistent.alive there
        change Ensures _ _ ((deref duplicated >>= _) object)
        rw [bind_returned (deref_ok old_found)]
        by_cases aged : duplicatedAge < clock - old.created
        · obtain ⟨groups, removed, _, consistent'⟩ := unregisterCursor_ok consistent there
          have absent : (object.without key groups).container.lookup key = none :=
            AList.lookup_erase key object.container
          have unregistered' : (object.without key groups).Unregistered access := by
            intro other registered
            have registered : (object.container.erase key).lookup other = some access := registered
            rw [Table.lookup_erase_eq] at registered
            split_ifs at registered
            exact unregistered other registered
          obtain ⟨container, groups', inserted, _, consistent''⟩ := @insertClient_ok _ _
            layouts _ _ _ consistent' absent unregistered' found orderly
          rw [if_pos aged, bind_returned removed, bind_returned inserted]
          exact consistent''
        · rw [if_neg aged]
          exact refused trivial
  · rw [if_neg isOpen]
    exact refused trivial

theorem unregister_ensures (consistent : object.Consistent) :
    Ensures (fun _ => Consistent) Refused (unregister key object) := by
  rw [unregister, get_bind]
  cases there : object.container.lookup key with
  | none => exact consistent
  | some access =>
      obtain ⟨groups, removed, _, consistent'⟩ := unregisterCursor_ok consistent there
      change Ensures _ _ ((unregisterCursor key >>= _) object)
      rw [bind_returned removed]
      exact consistent'

/-- All clients are unregistered. -/
theorem unregisterLoop_ensures (layout : Layout) {times : Nat} {queue : Table}
    (consistent : object.Consistent) (enough : object.container.entries.length < times)
    (apart : ∀ key ∈ object.container, key ∉ queue) :
    Ensures (fun _ => Consistent) Refused (unregisterLoop layout times queue object) := by
  induction times generalizing object queue with
  | zero => exact absurd enough (Nat.not_lt_zero _)
  | succ times ih =>
      rw [unregisterLoop, get_bind]
      cases entries : object.container.entries with
      | nil =>
          have none : object.container.first = none := by
            rw [Table.first, AList.keys, entries]
            rfl
          rw [none]
          exact consistent
      | cons node rest =>
          obtain ⟨key, access⟩ := node
          have first : object.container.first = some key := by
            rw [Table.first, AList.keys, entries]
            rfl
          have registered : object.container.lookup key = some access :=
            Table.mem_entries.mp (entries ▸ List.mem_cons_self)
          obtain ⟨groups, removed, _, consistent'⟩ := unregisterCursor_ok consistent registered
          have new := apart key (Table.mem_of_lookup registered)
          rw [first]
          change Ensures _ _ ((element object.container key >>= _) object)
          rw [bind_returned (element_ok registered), Table.put_ok new, bind_returned (lift_ok _),
            bind_returned removed]
          have erased : (object.container.erase key).entries = rest :=
            @Table.entries_erase _ _ _ [] _ entries
          refine ih consistent' ?_ fun other known => ?_
          · show (object.container.erase key).entries.length < times
            rw [erased]
            rw [entries, List.length_cons] at enough
            exact Nat.lt_of_succ_lt_succ enough
          · obtain ⟨different, known⟩ := AList.mem_erase.mp known
            rw [AList.lookup_isSome.symm, Table.lookup_put, if_neg different, AList.lookup_isSome]
            exact apart other known

theorem unregisterClients_ensures (consistent : object.Consistent) {isOpen : Bool} :
    Ensures (fun _ => Consistent) Refused (unregisterClients layouts isOpen object) := by
  rw [unregisterClients, modify_bind, get_bind]
  refine @unregisterLoop_ensures _ { object with isOpen } (layouts .queue) _ _
    (consistent.congr rfl rfl rfl rfl) (Nat.lt_succ_self _) fun key _ => AList.notMem_empty key

/-! ## Subscription -/

theorem subscribe_ensures (consistent : object.Consistent) :
    Ensures (fun _ => Consistent) Refused (subscribe layouts key name object) := by
  rw [subscribe, get_bind]
  cases there : object.container.lookup key with
  | none => exact consistent
  | some access =>
      exact (joinGroup_ensures consistent there).mono fun _ _ kept => kept.1

theorem subscribeCopy_ensures (consistent : object.Consistent) {source target : Text} :
    Ensures (fun _ => Consistent) Refused (subscribeCopy layouts source target object) := by
  have copies : ∀ (nodes : List (Sigma fun _ : Text => Nat)),
      (∀ node ∈ nodes, object.container.lookup node.1 = some node.2 ∧
        (source ≠ [] → ∃ holder, object.holders node.2 = some holder ∧ source ∈ holder.groups)) →
      Ensures (fun _ => Consistent) Refused
        (nodes.forM (copyMember layouts source target) object) := by
    intro nodes known
    let invariant : Object ε → Prop := fun after =>
      after.Consistent ∧ after.container = object.container ∧ object.Grows after
    have initially : invariant object := ⟨consistent, rfl, .refl object⟩
    refine (ensures_forM ?_ initially).mono fun _ _ kept => kept.1
    rintro node among after ⟨consistent', container_eq, grows⟩
    obtain ⟨registered, in_source⟩ := known node among
    rw [← container_eq] at registered
    obtain ⟨holder, found, _⟩ := consistent'.alive registered
    rw [copyMember, bind_returned (deref_ok found), if_neg]
    · refine (joinGroup_ensures consistent' registered).mono ?_
      rintro _ final ⟨consistent'', container_eq', grows'⟩
      exact ⟨consistent'', container_eq'.trans container_eq, grows.trans grows'⟩
    · rintro ⟨named, rfl, missing⟩
      obtain ⟨old, old_found, mem_source⟩ := in_source named
      obtain ⟨holder', found', more⟩ := grows node.2 old old_found
      rw [found, Option.some_inj] at found'
      subst found'
      exact missing (more source mem_source)
  rw [subscribeCopy]
  by_cases all : source = []
  · rw [if_pos all, get_bind]
    exact copies _ fun node among =>
      ⟨Table.mem_entries.mp among, fun named => absurd all named⟩
  · rw [if_neg all, get_bind]
    cases grouped : object.groups.lookup source with
    | none => exact consistent
    | some map =>
        refine copies _ fun node among => ?_
        obtain ⟨registered, holder, found, mem_source⟩ :=
          (consistent.member_iff source node.1 node.2).mp
            (Groups.member_eq_some.mpr ⟨map, grouped, Table.mem_entries.mp among⟩)
        exact ⟨registered, fun _ => ⟨holder, found, mem_source⟩⟩

/-- A client leaves a group, in its own set and in the tables. -/
theorem Agreeing.leave (agreeing : object.Agreeing)
    (registered : object.container.lookup key = some access)
    (found : object.holders access = some holder) {groups : Groups}
    (member_eq : ∀ other another, groups.member other another =
      if other = name ∧ another = key then none else object.groups.member other another) :
    Object.Agreeing { object.setHolder access { holder with groups := holder.groups.delete name } with
      groups } where
  member_iff other another access' := by
    show groups.member other another = some access' ↔ object.container.lookup another =
      some access' ∧ ∃ holder', (object.setHolder access _).holders access' = some holder' ∧ _
    rw [member_eq, holders_setHolder]
    by_cases gone : other = name ∧ another = key
    · obtain ⟨rfl, rfl⟩ := gone
      rw [if_pos ⟨rfl, rfl⟩, registered, Option.some_inj]
      refine iff_of_false nofun ?_
      rintro ⟨rfl, holder', found', name_mem⟩
      rw [if_pos rfl, Option.some_inj] at found'
      subst found'
      exact (GroupSet.mem_delete.mp name_mem).1 rfl
    · rw [if_neg gone]
      refine (agreeing.member_iff other another access').trans
        (and_congr_right fun registered' => ?_)
      by_cases same : access' = access
      · subst same
        have same_key := agreeing.single registered' registered
        rw [if_pos rfl, found]
        simp only [Option.some_inj, exists_eq_left']
        rw [GroupSet.mem_delete]
        exact (and_iff_right fun same_name => gone ⟨same_name, same_key⟩).symm
      · rw [if_neg same]
  alive {other access'} registered' := by
    show ∃ holder', (object.setHolder access _).holders access' = some holder' ∧ _
    rw [holders_setHolder]
    by_cases same : access' = access
    · subst same
      obtain ⟨holder', found', orderly, idle⟩ := agreeing.alive registered'
      rw [found, Option.some_inj] at found'
      subst found'
      rw [if_pos rfl]
      exact ⟨_, rfl, ⟨orderly.nodup, orderly.fresh, orderly.thin_iff⟩, idle⟩
    · rw [if_neg same]
      exact agreeing.alive registered'
  single := agreeing.single
  fresh {other} large := by
    show (object.setHolder access _).holders other = none
    rw [holders_setHolder, if_neg]
    · exact agreeing.fresh large
    · rintro rfl
      rw [agreeing.fresh large] at found
      cases found
  ordered := by
    have orderly : ClientHolder.Orderly { holder with groups := holder.groups.delete name } :=
      (agreeing.ordered found).congr rfl rfl rfl
    exact fun {_ _} found' => ordered_setHolder agreeing.ordered orderly found'

theorem unsubscribe_ensures (consistent : object.Consistent) :
    Ensures (fun _ => Consistent) Refused (unsubscribe key name object) := by
  rw [unsubscribe, get_bind]
  cases registered : object.container.lookup key with
  | none => exact consistent
  | some access =>
      obtain ⟨holder, found, _⟩ := consistent.alive registered
      change Ensures _ _ ((deref access >>= _) object)
      rw [bind_returned (deref_ok found)]
      by_cases name_mem : name ∈ holder.groups
      · obtain ⟨map, grouped, known⟩ := consistent.group_of_client registered found name_mem
        obtain ⟨groups, dropped, lookup_eq⟩ := @dropMember_ok _
          (object.setHolder access { holder with groups := holder.groups.delete name }) name key _
          grouped (Table.mem_of_lookup known)
        rw [if_pos name_mem, modify_bind, dropped]
        refine ⟨consistent.leave registered found fun other another => ?_, fun other map' grouped' => ?_⟩
        · rw [Groups.member, lookup_eq]
          by_cases same : other = name
          · subst same
            rw [if_pos rfl, Table.pruned_bind]
            simp only [true_and]
            rfl
          · rw [if_neg same, if_neg fun both => same both.1]
            rfl
        · have grouped' : groups.lookup other = some map' := grouped'
          rw [lookup_eq] at grouped'
          split_ifs at grouped' with same
          · rw [Table.pruned, Option.bind_eq_some_iff] at grouped'
            obtain ⟨_, _, grouped'⟩ := grouped'
            split_ifs at grouped' with empty
            cases grouped'
            exact empty
          · exact consistent.filled other map' grouped'
      · rw [if_neg name_mem]
        exact consistent

/-- The object in the middle of `Unsubscribe_Copy`, where the table of the target may be empty. -/
structure Emptying (target : Text) (group : Table) (object : Object ε) : Prop
    extends Agreeing object where
  grouped : object.groups.lookup target = some group
  filled_others : ∀ name map, name ≠ target → object.groups.lookup name = some map →
    map.entries ≠ []

theorem groupTable_ok {map : Table} (grouped : object.groups.lookup name = some map) :
    groupTable name object = .ok map object := by
  rw [groupTable, grouped]

/-- The table of a target without a client. -/
theorem member_insert_erase {groups : Groups} {group : Table} (grouped : groups.lookup name = some group)
    (other another : Text) :
    Groups.member (groups.insert name (group.erase key)) other another =
      if other = name ∧ another = key then none else groups.member other another := by
  rw [Groups.member]
  by_cases same : other = name
  · subst same
    rw [AList.lookup_insert, Option.bind_some, Table.lookup_erase_eq, Groups.member, grouped]
    simp only [true_and]
    rfl
  · rw [AList.lookup_insert_ne same, if_neg fun both => same both.1, Groups.member]

theorem unsubscribeTurn_ensures {source target : Text} {group : Table}
    {front back : List (Sigma fun _ : Text => Nat)} (emptying : object.Emptying target group)
    (split : group.entries = front ++ ⟨key, access⟩ :: back) :
    Ensures (fun next (after : Object ε) => next = (back.map Sigma.fst).head? ∧
      ∃ group front, after.Emptying target group ∧ group.entries = front ++ back)
      (fun _ _ => False) (unsubscribeTurn source target key object) := by
  have known := Table.lookup_of_split split
  obtain ⟨registered, holder, found, target_mem⟩ := (emptying.member_iff target key access).mp
    (Groups.member_eq_some.mpr ⟨group, emptying.grouped, known⟩)
  rw [unsubscribeTurn, bind_returned (groupTable_ok emptying.grouped),
    bind_returned (element_ok known), bind_returned (deref_ok found), Table.next_eq split]
  by_cases leaves : source = [] ∨ source ∈ holder.groups
  · rw [if_pos leaves, if_pos target_mem, modify_bind, modify_bind]
    refine ⟨rfl, group.erase key, front, ⟨emptying.leave registered found
      (member_insert_erase emptying.grouped), AList.lookup_insert _, fun name map apart grouped => ?_⟩,
      Table.entries_erase split⟩
    refine emptying.filled_others name map apart ?_
    rwa [← AList.lookup_insert_ne apart]
  · rw [if_neg leaves]
    refine ⟨rfl, group, front ++ [⟨key, access⟩], emptying, ?_⟩
    rw [split, List.append_assoc, List.singleton_append]

theorem unsubscribeLoop_ensures {source target : Text} {times : Nat} {group : Table}
    {front back : List (Sigma fun _ : Text => Nat)} (emptying : object.Emptying target group)
    (split : group.entries = front ++ back) (enough : back.length ≤ times) :
    Ensures (fun _ (after : Object ε) => ∃ group, after.Emptying target group) (fun _ _ => False)
      (unsubscribeLoop source target times (back.map Sigma.fst).head? object) := by
  induction back generalizing object group front times with
  | nil => cases times <;> exact ⟨group, emptying⟩
  | cons node back ih =>
      obtain ⟨times, rfl⟩ : ∃ rest, times = rest + 1 := ⟨times - 1, by
        rw [List.length_cons] at enough
        omega⟩
      refine (unsubscribeTurn_ensures emptying split).bind ?_
      rintro next after ⟨rfl, group', front', emptying', split'⟩
      exact ih emptying' split' (Nat.le_of_succ_le_succ enough)

theorem unsubscribeCopy_ensures (consistent : object.Consistent) {source target : Text} :
    Ensures (fun _ => Consistent) Refused (unsubscribeCopy source target object) := by
  rw [unsubscribeCopy, get_bind]
  cases grouped : object.groups.lookup target with
  | none => exact consistent
  | some group =>
      have emptying : object.Emptying target group :=
        ⟨consistent.toAgreeing, grouped, fun name map _ => consistent.filled name map⟩
      have first : group.first = (group.entries.map Sigma.fst).head? := rfl
      change Ensures _ _ ((unsubscribeLoop source target group.entries.length group.first >>= _) object)
      rw [first]
      refine Ensures.bind (Ensures.of_never (@unsubscribeLoop_ensures _ _ _ _ _ _ [] _ emptying rfl
        le_rfl)) ?_
      rintro _ after ⟨group', emptying'⟩
      show Consistent _
      dsimp only
      rw [emptying'.grouped]
      obtain ⟨entries, nodup⟩ := group'
      cases entries with
      | nil =>
          refine ⟨⟨fun name key access => ?_, emptying'.alive, emptying'.single, emptying'.fresh,
            emptying'.ordered⟩,
            fun name map grouped' => ?_⟩
          · refine Iff.trans ?_ (emptying'.member_iff name key access)
            show Groups.member (after.groups.erase target) name key = _ ↔ _
            rw [Groups.member, Groups.member]
            by_cases same : name = target
            · subst same
              rw [AList.lookup_erase, emptying'.grouped]
              exact Iff.rfl
            · rw [AList.lookup_erase_ne same]
          · have grouped' : (after.groups.erase target).lookup name = some map := grouped'
            by_cases same : name = target
            · subst same
              rw [AList.lookup_erase] at grouped'
              cases grouped'
            · rw [AList.lookup_erase_ne same] at grouped'
              exact emptying'.filled_others name map same grouped'
      | cons node rest =>
          refine ⟨emptying'.toAgreeing, fun name map grouped' => ?_⟩
          by_cases same : name = target
          · subst same
            rw [emptying'.grouped, Option.some_inj] at grouped'
            rw [← grouped']
            exact List.cons_ne_nil node rest
          · exact emptying'.filled_others name map same grouped'

end Object
end Push
end AdaWebServer

import AdaWebServer.Foundations.Execution
import AdaWebServer.Http2.Hpack.TableInvariant

/-!
# The dynamic table over a whole connection

The operations on a dynamic table and on the settings that bound it, in any order.  Size, length,
entries and map always agree.  The size is within the maximum as long as no operation reduces the
maximum below the size: entries are evicted by the next insertion only.
-/

namespace AdaWebServer
namespace Http2
namespace Hpack

open Execution WeightedQueue

/-- A dynamic table and the settings of its connection. -/
structure TableState where
  table : DynamicTable
  settings : Connection

/-- Operations on a dynamic table. -/
inductive TableOp where
  /-- `Insert`. -/
  | insert (name value : Text)
  /-- `Get_Name_Value_Index`, which inserts an unknown pair. -/
  | find (name value : Text)
  /-- `Get_Name`. -/
  | getName (index : Nat)
  /-- `Get_Name_Value`. -/
  | getNameValue (index : Nat)
  /-- A dynamic table size update, as `Decode` treats it. -/
  | sizeUpdate (size : Nat)
  /-- The settings frame of the peer. -/
  | set (entries : SettingsSet)

/-- Effect of an operation. -/
def TableState.apply (self : TableState) : TableOp → Except Exn TableState
  | .insert name value => do
      let table ← self.table.insert self.settings name value
      return { self with table }
  | .find name value => do
      let (_, _, table) ← self.table.getNameValueIndex self.settings name value
      return { self with table }
  | .getName index => do
      let index ← positive index
      let _ ← self.table.getName index
      return self
  | .getNameValue index => do
      let index ← positive index
      let _ ← self.table.getNameValue index
      return self
  | .sizeUpdate size => do
      let size ← natural size
      if self.settings.headerTableSize < size then
        raiseProtocolError .protocolError "error dynamic table update"
      else
        return { self with settings := self.settings.setDynamicHeaderTableSize size }
  | .set entries => do
      let settings ← self.settings.set entries
      return { self with settings }

/-- One operation that does not raise. -/
abbrev TableStep : TableState → TableOp → TableState → Prop := Computes TableState.apply

/-- A table before any operation. -/
def TableState.start (settings : Connection) : TableState where
  table := DynamicTable.empty
  settings := settings

/-! ## What an operation does -/

/-- The operation changes the maximum size. -/
def TableOp.Resizes : TableOp → Prop
  | .sizeUpdate _ => True
  | .set _ => True
  | _ => False

/-- Outcome of an operation, case by case. -/
inductive TableEffect (before : TableState) (op : TableOp) (after : TableState) : Prop
  /-- Nothing has changed. -/
  | unchanged (kind : ¬ op.Resizes) (same : after = before)
  /-- An entry has been inserted. -/
  | inserted {name value : Text} (pair : op = .insert name value ∨ op = .find name value)
      (done : before.table.insert before.settings name value = .ok after.table)
      (settings : after.settings = before.settings)
  /-- A size update has changed the maximum. -/
  | updated {size : Nat} (kind : op = .sizeUpdate size)
      (same : after =
        { before with settings := before.settings.setDynamicHeaderTableSize size })
  /-- A settings frame has changed the maximum. -/
  | recorded {entries : SettingsSet} (kind : op = .set entries)
      (done : before.settings.set entries = .ok after.settings) (same : after.table = before.table)

theorem tableEffect {before after : TableState} {op : TableOp} (step : TableStep before op after) :
    TableEffect before op after := by
  cases op with
  | insert name value =>
      simp only [Computes, TableState.apply, bind_eq_ok_iff] at step
      obtain ⟨table, done, step⟩ := step
      cases step
      exact .inserted (.inl rfl) done rfl
  | find name value =>
      simp only [Computes, TableState.apply, bind_eq_ok_iff, Prod.exists] at step
      obtain ⟨index, both, table, found, step⟩ := step
      cases step
      unfold DynamicTable.getNameValueIndex at found
      split at found
      · cases found
        exact .unchanged id rfl
      · split at found
        · simp only [bind_eq_ok_iff] at found
          obtain ⟨_, _, found⟩ := found
          cases found
          exact .unchanged id rfl
        · simp only [bind_eq_ok_iff] at found
          obtain ⟨_, done, found⟩ := found
          cases found
          exact .inserted (.inr rfl) done rfl
  | getName index =>
      simp only [Computes, TableState.apply, bind_eq_ok_iff] at step
      obtain ⟨_, _, _, _, step⟩ := step
      cases step
      exact .unchanged id rfl
  | getNameValue index =>
      simp only [Computes, TableState.apply, bind_eq_ok_iff] at step
      obtain ⟨_, _, _, _, step⟩ := step
      cases step
      exact .unchanged id rfl
  | sizeUpdate size =>
      simp only [Computes, TableState.apply, bind_eq_ok_iff] at step
      obtain ⟨converted, conversion, step⟩ := step
      obtain ⟨rfl, _⟩ := natural_eq_ok conversion
      split at step
      · cases step
      · cases step
        exact .updated rfl rfl
  | set entries =>
      simp only [Computes, TableState.apply, bind_eq_ok_iff] at step
      obtain ⟨_, recorded, step⟩ := step
      cases step
      exact .recorded rfl recorded rfl

/-- Every operation keeps the table consistent. -/
theorem consistent_of_tableStep {before after : TableState} {op : TableOp}
    (consistent : DynamicTable.Consistent before.table) (step : TableStep before op after) :
    DynamicTable.Consistent after.table := by
  rcases tableEffect step with ⟨_, rfl⟩ | ⟨_, done, _⟩ | ⟨_, rfl⟩ | ⟨_, _, same⟩
  · exact consistent
  · obtain ⟨_, _, _, _, kept, _⟩ := DynamicTable.insert_eq_ok consistent done
    exact kept
  · exact consistent
  · exact same ▸ consistent

/-! ## The maximum size -/

/-- The size of the table is within the current maximum. -/
def Bounded (state : TableState) : Prop :=
  state.table.size ≤ state.settings.dynamicHeaderTableSize

/-- The operation does not reduce the maximum below the size of the table. -/
def KeepsRoom (state : TableState) : TableOp → Prop
  | .sizeUpdate size => state.table.size ≤ size
  | .set entries =>
      state.table.size ≤
        (Connection.lastValue .headerTableSize entries).getD state.settings.headerTableSize
  | _ => True

theorem keepsRoom_of_not_resizes {state : TableState} {op : TableOp} (kind : ¬ op.Resizes) :
    KeepsRoom state op := by
  cases op <;> first | trivial | exact absurd trivial kind

/-- The size stays within the maximum exactly when the operation keeps room. -/
theorem bounded_iff_keepsRoom {before after : TableState} {op : TableOp}
    (consistent : DynamicTable.Consistent before.table) (bounded : Bounded before)
    (step : TableStep before op after) : Bounded after ↔ KeepsRoom before op := by
  rcases tableEffect step with ⟨kind, rfl⟩ | ⟨kind, done, same⟩ | ⟨rfl, rfl⟩ | ⟨rfl, done, same⟩
  · exact iff_of_true bounded (keepsRoom_of_not_resizes kind)
  · refine iff_of_true ?_ (keepsRoom_of_not_resizes (by rcases kind with rfl | rfl <;> exact id))
    obtain ⟨item, _, _, _, kept, entries, _⟩ := DynamicTable.insert_eq_ok consistent done
    rw [Bounded, same, kept.size_eq, entries]
    exact total_trim_le _ _
  · exact Iff.rfl
  · rw [Bounded, same, (Connection.set_eq_ok_iff.mp done).2]
    exact Iff.rfl

/-! ## The map of names -/

/-- Every entry is found under its name, and under its pair when it has a value. -/
def Indexed (table : DynamicTable) : Prop :=
  ∀ item ∈ table.tIN, ∀ key ∈ item.keys, (table.tNI.lookup key).isSome

/-- The entries that remain when an entry is inserted. -/
def TableState.remaining (self : TableState) (item : NameValue) : List NameValue :=
  trim NameValue.size self.settings.dynamicHeaderTableSize (self.table.tIN ++ [item])

/-- The entries that inserting an entry evicts. -/
def TableState.evicts (self : TableState) (item : NameValue) : List NameValue :=
  (self.table.tIN ++ [item]).take
    ((self.table.tIN ++ [item]).length - (self.remaining item).length)

/-- Inserting the pair evicts no entry that shares a key with one that remains. -/
def EvictsApart (state : TableState) (name value : Text) : Prop :=
  match nameValue (toLower name) value with
  | .ok item => ∀ old ∈ state.evicts item, ∀ kept ∈ state.remaining item, ∀ key ∈ kept.keys,
      key ≠ old.name ∧ key ≠ pairKey old.name old.value
  | .error _ => True

/-- The operation evicts no entry that shares a key with one that remains. -/
def KeepsKeys (state : TableState) : TableOp → Prop
  | .insert name value => EvictsApart state name value
  | .find name value =>
      findIndex static.tNI (toLower name) value = none →
        findIndex state.table.tNI (toLower name) value = none → EvictsApart state name value
  | _ => True

theorem TableState.evicts_append (self : TableState) (item : NameValue) :
    self.evicts item ++ self.remaining item = self.table.tIN ++ [item] := by
  obtain ⟨front, split⟩ : self.remaining item <:+ self.table.tIN ++ [item] := trim_suffix _ _
  rw [evicts, ← split, List.length_append, Nat.add_sub_cancel, List.take_left]

/-- The entries that are evicted are those before the ones that remain. -/
theorem TableState.mem_evicts_iff (self : TableState) (item old : NameValue) :
    old ∈ self.evicts item ↔
      ∃ rest, old :: rest <:+ self.table.tIN ++ [item] ∧ self.remaining item <:+ rest := by
  rw [← self.evicts_append item]
  constructor
  · intro member
    obtain ⟨front, later, split⟩ := List.append_of_mem member
    refine ⟨later ++ self.remaining item, ⟨front, ?_⟩, List.suffix_append _ _⟩
    rw [split, List.append_assoc, List.cons_append]
  · rintro ⟨rest, ⟨front, split⟩, later, rfl⟩
    rw [← List.cons_append, ← List.append_assoc] at split
    rw [← List.append_cancel_right split]
    exact List.mem_append_right _ List.mem_cons_self

/-- The entries stay indexed exactly when an insertion evicts no shared key. -/
theorem indexed_insert_iff {state : TableState} {table : DynamicTable} {name value : Text}
    (consistent : DynamicTable.Consistent state.table) (indexed : Indexed state.table)
    (done : state.table.insert state.settings name value = .ok table) :
    Indexed table ↔ EvictsApart state name value := by
  obtain ⟨item, item_name, item_value, takes, _⟩ := DynamicTable.insert_eq_ok consistent done
  have built : nameValue (toLower name) value = .ok item := by
    rw [← item_name, ← item_value]
    exact nameValue_eq_ok item.name_ne
  obtain ⟨other, other_done, _, entries, _, lookups⟩ :=
    DynamicTable.insert_spec consistent state.settings built takes
  rw [done] at other_done
  cases other_done
  have entries_eq : table.tIN = state.remaining item := entries
  rw [EvictsApart, built]
  constructor
  · intro indexed old evicted kept member key recorded
    obtain ⟨rest, suffix, later⟩ := (state.mem_evicts_iff item old).mp evicted
    rw [← not_or]
    intro shared
    have found := indexed kept (entries_eq ▸ member) key recorded
    rw [DynamicTable.insert_forgets consistent built takes done suffix (entries_eq ▸ later)
      shared] at found
    cases found
  · intro apart kept member key recorded
    rw [entries_eq] at member
    rw [lookups key fun old rest suffix later => apart old
      ((state.mem_evicts_iff item old).mpr ⟨rest, suffix, entries_eq ▸ later⟩) kept member key
      recorded]
    split
    · rfl
    · next absent =>
        have appended := (trim_suffix _ _).subset member
        rcases List.mem_append.mp appended with earlier | last
        · exact indexed kept earlier key recorded
        · rw [List.mem_singleton] at last
          exact absurd (last ▸ recorded) absent

/-- The entries stay indexed exactly when the operation evicts no shared key. -/
theorem indexed_iff_keepsKeys {before after : TableState} {op : TableOp}
    (consistent : DynamicTable.Consistent before.table) (indexed : Indexed before.table)
    (step : TableStep before op after) : Indexed after.table ↔ KeepsKeys before op := by
  cases op with
  | insert name value =>
      simp only [Computes, TableState.apply, bind_eq_ok_iff] at step
      obtain ⟨table, done, step⟩ := step
      cases step
      exact indexed_insert_iff consistent indexed done
  | find name value =>
      simp only [Computes, TableState.apply, bind_eq_ok_iff, Prod.exists] at step
      obtain ⟨index, both, table, found, step⟩ := step
      cases step
      unfold DynamicTable.getNameValueIndex at found
      split at found
      · next known =>
          cases found
          exact iff_of_true indexed fun unknown => by rw [known] at unknown; cases unknown
      · next unknown =>
          split at found
          · next known =>
              simp only [bind_eq_ok_iff] at found
              obtain ⟨_, _, found⟩ := found
              cases found
              exact iff_of_true indexed fun _ missing => by rw [known] at missing; cases missing
          · next missing =>
              simp only [bind_eq_ok_iff] at found
              obtain ⟨_, done, found⟩ := found
              cases found
              rw [indexed_insert_iff consistent indexed done]
              exact ⟨fun apart _ _ => apart, fun keeps => keeps unknown missing⟩
  | _ =>
      obtain ⟨_, rfl⟩ | ⟨kind, _, _⟩ | ⟨_, rfl⟩ | ⟨_, _, same⟩ := tableEffect step
      · exact iff_of_true indexed trivial
      · rcases kind with kind | kind <;> cases kind
      · exact iff_of_true indexed trivial
      · exact iff_of_true (same ▸ indexed) trivial

/-! ## The invariant -/

/-- What is expected of the table after every operation. -/
structure TableInvariant (state : TableState) : Prop where
  /-- The size is the sum over the entries. -/
  size_eq : state.table.size = total NameValue.size state.table.tIN
  /-- The length is the number of entries. -/
  length_eq : state.table.length = state.table.tIN.length
  /-- The index computed from a rank of the map is that of an entry with the key. -/
  indexes : ∀ {key : Text} {rank : Nat}, state.table.tNI.lookup key = some rank →
    ∃ index item, state.table.indexOfRank rank = .ok index ∧
      state.table.getNameValue index = .ok item ∧ key ∈ item.keys
  /-- The map knows every entry. -/
  indexed : Indexed state.table
  /-- The size is within the current maximum. -/
  bounded : Bounded state

theorem tableInvariant_iff {state : TableState} (consistent : DynamicTable.Consistent state.table) :
    TableInvariant state ↔ Bounded state ∧ Indexed state.table := by
  refine ⟨fun invariant => ⟨invariant.bounded, invariant.indexed⟩, fun both => ?_⟩
  refine ⟨consistent.size_eq, consistent.length_eq, ?_, both.2, both.1⟩
  intro key rank found
  obtain ⟨item, designated, recorded⟩ := consistent.designates found
  obtain ⟨index, index_eq, _, _, entered⟩ := DynamicTable.entry_indexOfRank consistent designated
  exact ⟨index, item, index_eq, entered _, recorded⟩

/-- The operation neither reduces the maximum below the size of the table nor evicts an entry that
shares a key with one that remains. -/
def KeepsTable (state : TableState) (op : TableOp) : Prop := KeepsRoom state op ∧ KeepsKeys state op

/-- The invariant survives an operation exactly when it keeps room and keys. -/
theorem tableInvariant_iff_keepsTable {before after : TableState} {op : TableOp}
    (consistent : DynamicTable.Consistent before.table) (invariant : TableInvariant before)
    (step : TableStep before op after) : TableInvariant after ↔ KeepsTable before op := by
  rw [tableInvariant_iff (consistent_of_tableStep consistent step),
    bounded_iff_keepsRoom consistent invariant.bounded step,
    indexed_iff_keepsKeys consistent invariant.indexed step]
  rfl

/-! ## Runs -/

/-- In every run in which no operation reduces the maximum below the size of the table or evicts an
entry that shares a key with one that remains, the invariant holds after every operation. -/
theorem tableInvariant_of_run {settings : Connection} {ops : List TableOp} {state : TableState}
    (run : Run (Guarded KeepsTable TableStep) (.start settings) ops state) :
    TableInvariant state := by
  have both : DynamicTable.Consistent state.table ∧ TableInvariant state := by
    refine run.invariant (fun state => DynamicTable.Consistent state.table ∧ TableInvariant state)
      ⟨DynamicTable.consistent_empty, ?_⟩ fun earlier step => ?_
    · rw [tableInvariant_iff DynamicTable.consistent_empty]
      exact ⟨Nat.zero_le _, fun _ member => absurd member List.not_mem_nil⟩
    · exact ⟨consistent_of_tableStep earlier.1 step.2,
        (tableInvariant_iff_keepsTable earlier.1 earlier.2 step.2).mpr step.1⟩
  exact both.2

instance (state : TableState) : ∀ op, Decidable (KeepsRoom state op)
  | .sizeUpdate _ => inferInstanceAs (Decidable (_ ≤ _))
  | .set _ => inferInstanceAs (Decidable (_ ≤ _))
  | .insert _ _ => inferInstanceAs (Decidable True)
  | .find _ _ => inferInstanceAs (Decidable True)
  | .getName _ => inferInstanceAs (Decidable True)
  | .getNameValue _ => inferInstanceAs (Decidable True)

instance (state : TableState) (name value : Text) : Decidable (EvictsApart state name value) := by
  unfold EvictsApart
  match nameValue (toLower name) value with
  | .ok _ | .error _ => infer_instance

instance (state : TableState) : ∀ op, Decidable (KeepsKeys state op)
  | .insert _ _ => inferInstanceAs (Decidable (EvictsApart _ _ _))
  | .find _ _ => inferInstanceAs (Decidable (_ → _ → EvictsApart _ _ _))
  | .getName _ => inferInstanceAs (Decidable True)
  | .getNameValue _ => inferInstanceAs (Decidable True)
  | .sizeUpdate _ => inferInstanceAs (Decidable True)
  | .set _ => inferInstanceAs (Decidable True)

instance (state : TableState) (op : TableOp) : Decidable (KeepsTable state op) :=
  inferInstanceAs (Decidable (_ ∧ _))

instance (state : TableState) : Decidable (Bounded state) := inferInstanceAs (Decidable (_ ≤ _))

/-- A size update above the size of the table is harmless, and so is an insertion that evicts an entry
with other keys. -/
theorem tableInvariant_after_update :
    ∃ state, state.table.length = 1 ∧ TableInvariant state := by
  obtain ⟨state, followed, length⟩ : ∃ state,
      follow KeepsTable TableState.apply (.start .initial)
        [.insert (text "a") (text "b"), .sizeUpdate 40, .insert (text "c") (text "d")] =
          some state ∧ state.table.length = 1 := by
    exact ⟨_, rfl, rfl⟩
  exact ⟨state, length, tableInvariant_of_run (run_of_follow followed)⟩

instance (table : DynamicTable) : Decidable (Indexed table) :=
  inferInstanceAs (Decidable (∀ item ∈ table.tIN, ∀ key ∈ item.keys, _))

/-- A size update to zero leaves an entry in the table.  Evicting the first of two entries with one name
leaves the second without a place in the map. -/
theorem size_update_keeps_entry :
    (∃ state, Run TableStep (.start .initial)
      [.insert (text "a") (text "b"), .sizeUpdate 0] state ∧ ¬ Bounded state ∧
        ¬ TableInvariant state) ∧
    ∃ state, Run TableStep (.start .initial)
      [.sizeUpdate 70, .insert (text "a") (text "b"), .insert (text "a") (text "b"),
        .insert (text "c") []] state ∧ Bounded state ∧ ¬ TableInvariant state := by
  obtain ⟨emptied, emptied_followed, size⟩ : ∃ state,
      follow (fun _ _ => True) TableState.apply (.start .initial)
        [.insert (text "a") (text "b"), .sizeUpdate 0] = some state ∧ ¬ Bounded state := by
    exact ⟨_, rfl, by decide +kernel⟩
  obtain ⟨shared, shared_followed, bounded, keys⟩ : ∃ state,
      follow (fun _ _ => True) TableState.apply (.start .initial)
        [.sizeUpdate 70, .insert (text "a") (text "b"), .insert (text "a") (text "b"),
          .insert (text "c") []] = some state ∧ Bounded state ∧ ¬ Indexed state.table := by
    exact ⟨_, rfl, by decide +kernel, by decide +kernel⟩
  exact ⟨⟨emptied, (run_of_follow emptied_followed).of_guarded, size,
      fun invariant => size invariant.bounded⟩,
    ⟨shared, (run_of_follow shared_followed).of_guarded, bounded,
      fun invariant => keys invariant.indexed⟩⟩

end Hpack
end Http2
end AdaWebServer

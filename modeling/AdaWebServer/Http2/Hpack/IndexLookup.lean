import AdaWebServer.Http2.Hpack.RoundTrip
import AdaWebServer.Http2.Hpack.TableRuns

/-!
# The indexes that a search returns

A search on a table of names without an equals sign returns an index of the name that was searched
for, and of the pair when it reports a match on both.  Evictions shift the indexes and duplicates
take over the keys of earlier entries, but a key of the map always designates an entry that has it.
-/

namespace AdaWebServer
namespace Http2
namespace Hpack

open Execution

theorem equals_mem_toLower {name : Text} : 61 ∈ toLower name ↔ 61 ∈ name := by
  have octet : ∀ c, toLowerOctet c = 61 ↔ c = 61 :=
    forall_octet (fun c => toLowerOctet c = 61 ↔ c = 61) (by decide +kernel)
  simp [toLower, octet]

/-- The names that the operation inserts have no equals sign. -/
def TableOp.Plain : TableOp → Prop
  | .insert name _ => 61 ∉ name
  | .find name _ => 61 ∉ name
  | _ => True

instance : DecidablePred TableOp.Plain
  | .insert name _ => inferInstanceAs (Decidable (61 ∉ name))
  | .find name _ => inferInstanceAs (Decidable (61 ∉ name))
  | .getName _ => inferInstanceAs (Decidable True)
  | .getNameValue _ => inferInstanceAs (Decidable True)
  | .sizeUpdate _ => inferInstanceAs (Decidable True)
  | .set _ => inferInstanceAs (Decidable True)

theorem regular_empty : Regular DynamicTable.empty where
  consistent := DynamicTable.consistent_empty
  plain := by simp [DynamicTable.empty]

/-- Inserting a plain name keeps the names plain. -/
theorem Regular.insert {table after : DynamicTable} {settings : Connection} {name value : Text}
    (regular : Regular table) (plain : 61 ∉ name)
    (inserted : table.insert settings name value = .ok after) : Regular after := by
  obtain ⟨item, item_name, _, _, consistent, kept, _⟩ :=
    DynamicTable.insert_eq_ok regular.consistent inserted
  refine ⟨consistent, ?_⟩
  intro other member
  rw [kept] at member
  rcases List.mem_append.mp ((WeightedQueue.trim_suffix _ _).subset member) with old | last
  · exact regular.plain other old
  · obtain rfl := List.mem_singleton.mp last
    rw [item_name, equals_mem_toLower]
    exact plain

theorem regular_of_tableStep {before after : TableState} {op : TableOp} (plain : op.Plain)
    (regular : Regular before.table) (step : TableStep before op after) :
    Regular after.table := by
  rcases tableEffect step with ⟨_, rfl⟩ | ⟨rfl | rfl, done, _⟩ | ⟨_, rfl⟩ | ⟨_, _, same⟩
  · exact regular
  · exact regular.insert plain done
  · exact regular.insert plain done
  · exact regular
  · exact same ▸ regular

/-- Insertions of plain names, with the evictions that they cause, keep the table regular. -/
theorem regular_of_run {settings : Connection} {ops : List TableOp} {state : TableState}
    (run : Run (Guarded (fun _ op => op.Plain) TableStep) (.start settings) ops state) :
    Regular state.table :=
  run.invariant (fun state => Regular state.table) regular_empty
    fun regular step => regular_of_tableStep step.1 regular step.2

/-- A search does not depend on the case of the name. -/
theorem DynamicTable.getNameValueIndex_toLower (table : DynamicTable) (settings : Connection)
    (name value : Text) : table.getNameValueIndex settings (toLower name) value =
      table.getNameValueIndex settings name value := by
  simp only [getNameValueIndex, insert, toLower_idem]

/-- An index that a search returns is that of an entry with the name and, when it reports a match
on both, with the value. -/
theorem Regular.index_designates {table after : DynamicTable} {settings : Connection}
    {name value : Text} {index : Nat} {both : Bool} (regular : Regular table)
    (plain : 61 ∉ name)
    (found : table.getNameValueIndex settings name value = .ok (index, both, after))
    (index_pos : 0 < index) :
    after = table ∧ ∃ item, (∀ what, table.entry what index = .ok item) ∧
      item.name = toLower name ∧ (both = true → item.value = value) := by
  rw [← DynamicTable.getNameValueIndex_toLower] at found
  have lower_plain : 61 ∉ toLower name := equals_mem_toLower.not.mpr plain
  rcases DynamicTable.lookupResult regular.consistent regular.plain settings (toLower_idem name)
    lower_plain value with
    ⟨paired, _, _, designated, names, values, _⟩ | ⟨named, _, _, designated, names, _, _⟩ |
    ⟨inserted, _, _⟩
  · rw [paired] at found
    cases found
    exact ⟨rfl, _, designated, names, fun _ => values⟩
  · rw [named] at found
    cases found
    exact ⟨rfl, _, designated, names, fun both => absurd both Bool.false_ne_true⟩
  · rw [inserted] at found
    simp only [bind_eq_ok_iff] at found
    obtain ⟨_, _, zero⟩ := found
    cases zero
    exact absurd index_pos (lt_irrefl 0)

/-- After every sequence of operations on plain names, an index that a search returns leads back to
the lower-cased name, and to the pair when a match on both is reported. -/
theorem index_found_of_run {settings : Connection} {ops : List TableOp} {state : TableState}
    (run : Run TableStep (.start settings) ops state) (plain_ops : ∀ op ∈ ops, op.Plain)
    {name value : Text} (plain : 61 ∉ name) {index : Nat} {both : Bool} {after : DynamicTable}
    (found : state.table.getNameValueIndex state.settings name value = .ok (index, both, after))
    (index_pos : 0 < index) :
    after.getName index = .ok (toLower name) ∧
      (both = true → ∃ item, after.getNameValue index = .ok item ∧
        item.name = toLower name ∧ item.value = value) := by
  have regular : Regular state.table := regular_of_run (run.guarded_of_forall plain_ops)
  obtain ⟨rfl, item, designated, names, values⟩ := regular.index_designates plain found index_pos
  constructor
  · rw [DynamicTable.getName, designated, ok_bind, names]
    rfl
  · intro matched
    exact ⟨item, designated _, names, values matched⟩

/-- The eviction of an entry shifts the index of a pair that was inserted after it. -/
theorem index_found_after_eviction :
    ∃ table : DynamicTable, table.getName 63 = .ok (text "a") ∧
      ∃ item, table.getNameValue 63 = .ok item ∧ item.name = text "a" ∧
        item.value = text "d" := by
  obtain ⟨state, followed, found⟩ : ∃ state,
      follow (fun _ _ => True) TableState.apply (.start .initial)
        [.sizeUpdate 70, .insert (text "a") (text "b"), .insert (text "A") (text "d"),
          .insert (text "c") []] = some state ∧
      state.table.getNameValueIndex state.settings (text "A") (text "d") =
        .ok (63, true, state.table) := by
    exact ⟨_, rfl, rfl⟩
  obtain ⟨name, pair⟩ := index_found_of_run (run_of_follow followed).of_guarded
    (by decide +kernel) (by decide +kernel) found (by decide)
  exact ⟨state.table, name, pair rfl⟩

end Hpack
end Http2
end AdaWebServer

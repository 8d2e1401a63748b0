import AdaWebServer.Containers.Tables
import AdaWebServer.Foundations.Execution

/-!
# The index of a table

The index lists the positions of the pairs of each name, so that a table is a multimap in insertion order.
An `Update` of a further value of a name that is not there leaves the name in the index.
-/

namespace AdaWebServer
namespace Containers

open Http2 (Text Exn Positive toLower)
open Multimap (positions itemsOf replaceNth)

/-- The pairs of a table in insertion order, each with the key of the name it was added with. -/
abbrev Entries := List (Text × Element)

namespace Entries

/-- A pair is added. -/
def add (mode : Mode) (name value : Text) (entries : Entries) : Entries :=
  entries ++ [(mode.normalizeName name, mode.newElement name value)]

/-- The pair of a name with the given number is replaced, or one more is added. -/
def update (mode : Mode) (name value : Text) (n : Nat) (entries : Entries) : Entries :=
  if n = (itemsOf (mode.normalizeName name) entries).length + 1 then entries.add mode name value
  else replaceNth (mode.normalizeName name) (mode.newElement name value) n entries

/-- The pairs of another table are added, only those with new names if they have to be unique. -/
def union (mode : Mode) (unique : Bool) (items : List Element) (entries : Entries) : Entries :=
  items.foldl (fun entries item =>
    if unique ∧ mode.normalizeName item.name ∈ entries.map Prod.fst then entries
    else entries.add mode item.name item.value) entries

end Entries

/-- A call of one of the operations that change a table. -/
inductive TableCall where
  | add (name value : Text)
  | update (name value : Text) (n : Positive)
  | union (right : Table) (unique : Bool)
  | reset

/-- A table with the pairs that it should hold. -/
structure Ledger where
  table : Table
  entries : Entries

namespace Ledger

/-- What a call does to the table. -/
def change : TableCall → EStateM Exn Table Unit
  | .add name value => Table.add name value
  | .update name value n => Table.update name value n
  | .union right unique => Table.union right unique
  | .reset => Table.reset

/-- What a call should do to the pairs. -/
def specify (mode : Mode) : TableCall → Entries → Entries
  | .add name value => Entries.add mode name value
  | .update name value n => Entries.update mode name value n
  | .union right unique => Entries.union mode unique right.data
  | .reset => fun _ => []

/-- A call is made; an exception goes to the caller, and the table stays as it was left. -/
def perform (ledger : Ledger) (call : TableCall) : Ledger where
  table := Protected.left (change call ledger.table)
  entries := specify ledger.table.toMode call ledger.entries

/-- A call is made. -/
def Step (before : Ledger) (call : TableCall) (after : Ledger) : Prop :=
  after = before.perform call

/-- A further value of a name is updated only if the name is there. -/
def Guard (ledger : Ledger) : TableCall → Prop
  | .update name _ n => n.1 = 1 ∨ ledger.table.exist name
  | _ => True

/-- A table without pairs. -/
def empty (mode : Mode) : Ledger where
  table := { toMode := mode }
  entries := []

end Ledger

/-- The vector holds the pairs, and the index lists the positions of each key that is there. -/
structure Represents (table : Table) (entries : Entries) : Prop where
  data_eq : table.data = entries.map Prod.snd
  index_eq : ∀ key, table.index[key]? =
    if key ∈ entries.map Prod.fst then some (positions key (entries.map Prod.fst)) else none

/-- The values of one name, joined. -/
def joinValues (separator : Text) (items : List Element) : Text :=
  (items.map Element.value).foldl (Table.appendValue separator) []

/-- What the table gives agrees with the list of pairs. -/
structure Agrees (table : Table) (entries : Entries) : Prop where
  /-- An entry of the index lists exactly the positions of its key, in increasing order. -/
  listed : ∀ (key : Text) (list : List Nat), table.index[key]? = some list → list.Pairwise (· < ·) ∧ list ≠ [] ∧
    ∀ position, position ∈ list ↔
      1 ≤ position ∧ (entries.map Prod.fst)[position - 1]? = some key
  /-- Every position is listed once. -/
  once : ∀ position, 1 ≤ position → position ≤ table.count →
    ∃! key : Text, ∃ list, table.index[key]? = some list ∧ position ∈ list
  count_eq : table.count = entries.length
  isEmpty_eq : table.isEmpty = entries.isEmpty
  get_eq : ∀ n : Positive, table.get n = ((entries.map Prod.snd)[n.1 - 1]?).getD {}
  countName_eq : ∀ name,
    table.countName name = (itemsOf (table.normalizeName name) entries).length
  exist_iff : ∀ name, table.exist name ↔ table.normalizeName name ∈ entries.map Prod.fst
  getNamed_eq : ∀ name (n : Positive), table.getNamed name n =
    .ok ((((itemsOf (table.normalizeName name) entries)[n.1 - 1]?).map Element.value).getD [])
  getValues_eq : ∀ name, table.getValues name =
    .ok ((itemsOf (table.normalizeName name) entries).map Element.value)
  getNames_sorted : table.getNames.Pairwise fun first second => compare first second = .lt
  mem_getNames : ∀ key, key ∈ table.getNames ↔ key ∈ entries.map Prod.fst
  nameCount_eq : table.nameCount = table.getNames.length
  iterateNames_eq : ∀ separator, table.iterateNames separator =
    .ok (table.getNames.map fun key =>
      ((((itemsOf key entries).getLast?).getD {}).name, joinValues separator (itemsOf key entries)))

variable {table : Table} {entries : Entries}

namespace Represents

theorem getD_eq (represents : Represents table entries) (key : Text) :
    (table.index[key]?).getD [] = positions key (entries.map Prod.fst) := by
  rw [represents.index_eq]
  split_ifs with there
  · rfl
  · exact (Multimap.positions_eq_nil_iff.2 there).symm

theorem contains_iff (represents : Represents table entries) (key : Text) :
    table.index.contains key ↔ key ∈ entries.map Prod.fst := by
  rw [Std.TreeMap.contains_eq_isSome_getElem?, represents.index_eq]
  split_ifs with there
  · exact iff_of_true rfl there
  · exact iff_of_false Bool.false_ne_true there

/-- A pair is added at the end. -/
theorem append (represents : Represents table entries) (key : Text) (element : Element)
    {item : List Nat} (item_eq : item = positions key (entries.map Prod.fst)) :
    Represents { table with
      data := table.data ++ [element]
      index := (table.index.insertIfNew key []).insert key (item ++ [table.data.length + 1]) }
      (entries ++ [(key, element)]) := by
  refine ⟨?_, fun other => ?_⟩
  · rw [List.map_append, ← represents.data_eq]
    rfl
  · have length_eq : table.data.length = (entries.map Prod.fst).length := by
      rw [represents.data_eq, List.length_map, List.length_map]
    rw [List.map_append, List.map_singleton, Multimap.positions_concat, ← length_eq,
      Std.TreeMap.getElem?_insert, Std.TreeMap.getElem?_insertIfNew, represents.index_eq, item_eq]
    simp only [Std.LawfulEqCmp.compare_eq_iff_eq, List.mem_append, List.mem_singleton]
    by_cases same : key = other
    · subst same
      rw [if_pos rfl, if_pos rfl, if_pos (.inr rfl)]
    · have absent : ¬other = key := Ne.symm same
      simp only [same, absent, false_and, or_false, if_false]

/-- A pair is replaced. -/
theorem replace (represents : Represents table entries) (key : Text) (element : Element)
    {n position : Nat} (positive : 0 < n)
    (listed : (positions key (entries.map Prod.fst))[n - 1]? = some position) :
    Represents { table with
      data := table.data.set (position - 1) element
      index := table.index.insertIfNew key [] } (replaceNth key element n entries) := by
  have there : key ∈ entries.map Prod.fst := by
    by_contra absent
    rw [Multimap.positions_eq_nil_iff.2 absent] at listed
    cases listed
  refine ⟨?_, fun other => ?_⟩
  · rw [Multimap.replaceNth_snd positive listed, represents.data_eq]
  · rw [Multimap.replaceNth_fst, Std.TreeMap.getElem?_insertIfNew, if_neg, represents.index_eq]
    rintro ⟨_, absent⟩
    exact absent (Std.TreeMap.contains_iff_mem.1 ((represents.contains_iff key).2 there))

theorem insertIfNew_getD (represents : Represents table entries) (key : Text) :
    (table.index.insertIfNew key []).getD key [] = positions key (entries.map Prod.fst) := by
  rw [Std.TreeMap.getD_eq_getD_getElem?, Std.TreeMap.getElem?_insertIfNew]
  split_ifs with inserted
  · rw [← Std.TreeMap.contains_iff_mem, represents.contains_iff] at inserted
    exact (Multimap.positions_eq_nil_iff.2 inserted.2).symm
  · exact represents.getD_eq key

/-- `Update_Internal` keeps the correspondence, unless it leaves a new name without pairs. -/
theorem updateInternal (represents : Represents table entries) (name value : Text) {n : Nat}
    (sound : n ≤ 1 ∨ table.exist name) :
    Represents (Protected.left (table.updateInternal name value n))
        (if n = 0 then entries.add table.toMode name value
          else entries.update table.toMode name value n) ∧
      (Protected.left (table.updateInternal name value n)).toMode = table.toMode := by
  have opening : ¬(¬table.index.contains (table.normalizeName name) ∧ 1 < n) := by
    rintro ⟨absent, large⟩
    exact absent (sound.resolve_left (by omega))
  rw [Table.updateInternal, if_neg opening, Table.process]
  dsimp only
  rw [represents.insertIfNew_getD, Multimap.positions_length]
  by_cases appended : n = 0 ∨ n = (itemsOf (table.normalizeName name) entries).length + 1
  · have entries_eq : (if n = 0 then entries.add table.toMode name value
        else entries.update table.toMode name value n) = entries.add table.toMode name value := by
      split_ifs with zero
      · rfl
      · rw [Entries.update, if_pos (appended.resolve_left zero)]
    rw [if_pos appended, entries_eq]
    exact ⟨represents.append (table.normalizeName name) (table.newElement name value) rfl, rfl⟩
  · rw [not_or] at appended
    rw [if_neg (not_or.2 appended), if_neg appended.1, Entries.update, if_neg appended.2]
    have positive : 0 < n := Nat.pos_of_ne_zero appended.1
    cases listed : (positions (table.normalizeName name) (entries.map Prod.fst))[n - 1]? with
    | some position => exact ⟨represents.replace _ (table.newElement name value) positive listed, rfl⟩
    | none =>
        rw [List.getElem?_eq_none_iff, Multimap.positions_length] at listed
        have large : 1 < n := by omega
        have there := (represents.contains_iff _).1 (sound.resolve_left (by omega))
        rw [Multimap.replaceNth_of_lt (by omega)]
        refine ⟨⟨represents.data_eq, fun other => ?_⟩, rfl⟩
        show (table.index.insertIfNew _ _)[other]? = _
        rw [Std.TreeMap.getElem?_insertIfNew, if_neg, represents.index_eq]
        rintro ⟨_, absent⟩
        exact absent (Std.TreeMap.contains_iff_mem.1 ((represents.contains_iff _).2 there))

/-- `Add` adds a pair. -/
theorem add (represents : Represents table entries) (name value : Text) :
    ∃ next, table.updateInternal name value 0 = .ok () next ∧
      Represents next (entries.add table.toMode name value) ∧ next.toMode = table.toMode := by
  obtain ⟨added, same_mode⟩ := represents.updateInternal name value (.inl (Nat.zero_le 1))
  rw [if_pos rfl] at added
  rw [Table.updateInternal, if_neg (by omega), Table.process] at added same_mode ⊢
  dsimp only at added same_mode ⊢
  rw [if_pos (.inl rfl)] at added same_mode ⊢
  exact ⟨_, rfl, added, same_mode⟩

/-- `Union` adds the pairs that it should. -/
theorem unionItems (represents : Represents table entries) (unique : Bool) (items : List Element) :
    ∃ next, Table.unionItems unique items table = .ok () next ∧
      Represents next (entries.union table.toMode unique items) ∧ next.toMode = table.toMode := by
  induction items generalizing table entries with
  | nil => exact ⟨table, rfl, represents, rfl⟩
  | cons item later ih =>
      have exist_iff := represents.contains_iff (table.normalizeName item.name)
      rw [Table.unionItems, Entries.union, List.foldl_cons]
      by_cases skipped : unique ∧ table.exist item.name
      · rw [if_pos skipped, if_pos (skipped.imp_right exist_iff.1)]
        exact ih represents
      · obtain ⟨next, added_eq, added, same_mode⟩ := represents.add item.name item.value
        obtain ⟨last, union_eq, united, last_mode⟩ := ih added
        rw [if_neg skipped, if_neg fun both => skipped (both.imp_right exist_iff.2), added_eq]
        rw [same_mode] at united last_mode
        exact ⟨last, union_eq, united, last_mode⟩

/-- A call keeps the correspondence, unless it leaves a new name without pairs. -/
theorem perform {ledger : Ledger} {call : TableCall}
    (represents : Represents ledger.table ledger.entries) (sound : ledger.Guard call) :
    Represents (ledger.perform call).table (ledger.perform call).entries := by
  cases call with
  | add name value => exact (represents.updateInternal name value (.inl (Nat.zero_le 1))).1
  | update name value n =>
      have positive : n.1 ≠ 0 := Nat.one_le_iff_ne_zero.1 n.2.1
      have updated := (represents.updateInternal name value (sound.imp_left le_of_eq)).1
      rw [if_neg positive] at updated
      exact updated
  | union right unique =>
      obtain ⟨next, union_eq, united, _⟩ := represents.unionItems unique right.data
      show Represents (Protected.left (Table.unionItems unique right.data ledger.table)) _
      rw [union_eq]
      exact united
  | reset => exact ⟨rfl, fun key => Std.TreeMap.getElem?_emptyc⟩

/-! ## What the accessors give -/

/-- A loop whose steps all return. -/
private theorem mapM_eq_map {α β : Type} {step : α → Except Exn β} {result : α → β} {items : List α}
    (returns : ∀ item ∈ items, step item = .ok (result item)) :
    items.mapM step = .ok (items.map result) := by
  induction items with
  | nil => rfl
  | cons item items ih =>
      rw [List.forall_mem_cons] at returns
      rw [List.mapM_cons, returns.1, Http2.ok_bind, ih returns.2, Http2.ok_bind, List.map_cons]
      rfl

/-- The pairs at the positions of a key are its items. -/
private theorem mapM_positions {α : Type} (represents : Represents table entries) (key : Text)
    (result : Element → α) :
    (positions key (entries.map Prod.fst)).mapM
        (fun position => (table.elementAt position).map result) =
      .ok ((itemsOf key entries).map result) := by
  have held := Multimap.map_positionsFrom key 1 entries
  rw [← represents.data_eq] at held
  change (positions key (entries.map Prod.fst)).map _ = _ at held
  generalize positions key (entries.map Prod.fst) = listed at held ⊢
  generalize itemsOf key entries = items at held ⊢
  induction listed generalizing items with
  | nil =>
      rw [List.map_nil, eq_comm, List.map_eq_nil_iff] at held
      rw [held]
      rfl
  | cons position listed ih =>
      cases items with
      | nil => cases held
      | cons item items =>
          rw [List.map_cons, List.map_cons, List.cons.injEq] at held
          have element_eq : table.elementAt position = .ok item := by
            rw [Table.elementAt, held.1]
          rw [List.mapM_cons, element_eq, ih items held.2]
          rfl

/-- The items of a key are at its positions. -/
private theorem elementAt_position (represents : Represents table entries) {key : Text} {n : Nat}
    (result : Element → Text) :
    (match (positions key (entries.map Prod.fst))[n]? with
      | some position => (table.elementAt position).map result
      | none => .ok []) = .ok ((((itemsOf key entries)[n]?).map result).getD []) := by
  have held := congrArg (fun list : List (Option Element) => list[n]?)
    (Multimap.map_positionsFrom key 1 entries)
  rw [List.getElem?_map, List.getElem?_map, ← represents.data_eq] at held
  rw [positions]
  cases listed : (Multimap.positionsFrom key 1 (entries.map Prod.fst))[n]? with
  | none =>
      rw [listed, Option.map_none, eq_comm, Option.map_eq_none_iff] at held
      rw [held]
      rfl
  | some position =>
      rw [listed, Option.map_some] at held
      cases item_eq : (itemsOf key entries)[n]? with
      | none =>
          rw [item_eq] at held
          cases held
      | some item =>
          rw [item_eq, Option.map_some, Option.some.injEq] at held
          dsimp only
          rw [Table.elementAt, held]
          rfl

/-- The names and values of one entry of the index are processed. -/
private theorem iterateName_eq (represents : Represents table entries) (separator : Text)
    {key : Text} (there : key ∈ entries.map Prod.fst) :
    table.iterateName separator (positions key (entries.map Prod.fst)) =
      .ok ((((itemsOf key entries).getLast?).getD {}).name,
        joinValues separator (itemsOf key entries)) := by
  have elements := represents.mapM_positions key id
  have same : (fun position => (table.elementAt position).map id) = table.elementAt := by
    funext position
    exact congrFun Except.map_id _
  rw [same, List.map_id] at elements
  have items_ne : itemsOf key entries ≠ [] := by
    intro none_left
    have lengths := Multimap.positions_length key entries
    rw [none_left, List.length_nil, List.length_eq_zero_iff, Multimap.positions_eq_nil_iff] at lengths
    exact lengths there
  rw [Table.iterateName, elements, Http2.ok_bind, List.getLast?_eq_some_getLast items_ne]
  rfl

theorem agrees (represents : Represents table entries) : Agrees table entries where
  listed key list held := by
    rw [represents.index_eq] at held
    split_ifs at held with there
    cases held
    refine ⟨Multimap.positionsFrom_pairwise key 1 _, ?_, fun _ => Multimap.mem_positions⟩
    exact fun none_listed => Multimap.positions_eq_nil_iff.1 none_listed there
  once position positive within := by
    have count_eq : table.count = (entries.map Prod.fst).length := by
      rw [Table.count, represents.data_eq, List.length_map, List.length_map]
    have index_lt : position - 1 < (entries.map Prod.fst).length := by omega
    have held := List.getElem?_eq_getElem index_lt
    refine ⟨(entries.map Prod.fst)[position - 1], ⟨_, ?_, Multimap.mem_positions.2 ⟨positive, held⟩⟩, ?_⟩
    · rw [represents.index_eq, if_pos (List.getElem_mem index_lt)]
    · rintro other ⟨list, other_eq, among⟩
      rw [represents.index_eq] at other_eq
      split_ifs at other_eq
      cases other_eq
      have other_held := (Multimap.mem_positions.1 among).2
      exact Option.some.inj (other_held.symm.trans held)
  count_eq := by rw [Table.count, represents.data_eq, List.length_map]
  isEmpty_eq := by rw [Table.isEmpty, represents.data_eq, List.isEmpty_map]
  get_eq n := by rw [Table.get, represents.data_eq]
  countName_eq name := by
    rw [Table.countName, Table.getIndexes, represents.getD_eq, Multimap.positions_length]
  exist_iff name := represents.contains_iff _
  getNamed_eq name n := by
    rw [Table.getNamed, Table.getIndexes, represents.getD_eq]
    exact represents.elementAt_position Element.value
  getValues_eq name := by
    rw [Table.getValues, Table.getIndexes, represents.getD_eq]
    exact represents.mapM_positions _ Element.value
  getNames_sorted := Std.TreeMap.ordered_keys
  mem_getNames key := by
    rw [Table.getNames, Std.TreeMap.mem_keys, ← Std.TreeMap.contains_iff_mem, represents.contains_iff]
  nameCount_eq := Std.TreeMap.length_keys.symm
  iterateNames_eq separator := by
    rw [Table.iterateNames, Table.getNames, ← Std.TreeMap.map_fst_toList_eq_keys, List.map_map]
    refine mapM_eq_map fun entry among => ?_
    have held := Std.TreeMap.mem_toList_iff_getElem?_eq_some.1 among
    rw [represents.index_eq] at held
    split_ifs at held with there
    rw [← Option.some.inj held]
    exact represents.iterateName_eq separator there

end Represents

namespace Ledger

/-- The steps in which a further value is updated only of a name that is there. -/
def GuardedStep : Ledger → TableCall → Ledger → Prop := Execution.Guarded Guard Step

/-- In every run in which each update of a further value is of a name that is there, the index and the
vector correspond, and what the table gives agrees with the pairs in insertion order. -/
theorem agrees_of_run {mode : Mode} {calls : List TableCall} {ledger : Ledger}
    (run : Execution.Run GuardedStep (empty mode) calls ledger) :
    Agrees ledger.table ledger.entries := by
  have represents : Represents ledger.table ledger.entries := by
    refine run.invariant (fun ledger => Represents ledger.table ledger.entries) ?_ ?_
    · exact ⟨rfl, fun key => Std.TreeMap.getElem?_emptyc⟩
    · rintro before after call holds ⟨sound, rfl⟩
      exact holds.perform sound
  exact represents.agrees

/-- Two values of one name, one of which is updated, and a value of another name. -/
theorem agrees_three_pairs :
    ∃ ledger, Execution.Run GuardedStep (empty { caseSensitive := false })
      [.add [65] [1], .add [66] [2], .update [97] [3] ⟨2, by decide⟩, .update [65] [4] ⟨1, by decide⟩]
      ledger ∧ Agrees ledger.table ledger.entries := by
  have run : Execution.Run GuardedStep (empty { caseSensitive := false })
      ([] ++ [.add [65] [1]] ++ [.add [66] [2]] ++ [.update [97] [3] ⟨2, by decide⟩] ++
        [.update [65] [4] ⟨1, by decide⟩]) _ :=
    .snoc (.snoc (.snoc (.snoc .nil ⟨trivial, rfl⟩) ⟨trivial, rfl⟩) ⟨.inr (by decide +kernel), rfl⟩)
      ⟨.inl rfl, rfl⟩
  exact ⟨_, run, agrees_of_run run⟩

/-- An update of the second value of a new name raises and leaves the name in the index. -/
theorem update_leaves_name :
    ¬∀ (mode : Mode) (calls : List TableCall) (ledger : Ledger),
      Execution.Run Step (empty mode) calls ledger → Agrees ledger.table ledger.entries := by
  intro all
  have agrees := all {} _ _ (.snoc .nil (rfl : Step (empty {}) (.update [65] [1] ⟨2, by decide⟩) _))
  have there := (agrees.exist_iff [65]).1 (by decide +kernel)
  revert there
  decide +kernel

end Ledger

namespace Table

/-! ## A failed update -/

private theorem insertIfNew_of_contains {index : Std.TreeMap Text (List Nat)} {key : Text}
    (there : index.contains key) : index.insertIfNew key [] = index := by
  obtain ⟨⟨impl, formed⟩⟩ := index
  have same : Std.DTreeMap.Internal.Impl.insertIfNew key [] impl formed.balanced =
      ⟨impl, formed.balanced, Nat.le_refl _, Nat.le_succ _⟩ := if_pos there
  refine congrArg Std.TreeMap.mk ((Std.DTreeMap.mk.injEq ..).mpr ?_)
  rw [same]

/-- An update of a name that is there, or of the first value of a name, leaves the table as it was if it
raises. -/
theorem update_unchanged {name value : Text} {n : Positive} {exn : Exn} {after : Table}
    (sound : n.1 = 1 ∨ table.exist name) (raised : update name value n table = .error exn after) :
    after = table := by
  have opening : ¬(¬table.index.contains (table.normalizeName name) ∧ 1 < n.1) := by
    rintro ⟨absent, large⟩
    exact absent (sound.resolve_left (by omega))
  rw [update, updateInternal, if_neg opening, process] at raised
  dsimp only at raised
  split_ifs at raised with appended
  by_cases there : table.index.contains (table.normalizeName name)
  · rw [insertIfNew_of_contains there] at raised
    split at raised
    · cases raised
    · cases raised
      rfl
  · -- The first value of a new name is added.
    have first := sound.resolve_right there
    rw [Std.TreeMap.contains_iff_mem] at there
    rw [Std.TreeMap.getD_insertIfNew, if_pos ⟨Std.ReflCmp.compare_self, there⟩] at appended
    exact absurd (.inr first) appended

/-- A loop raises if one of its steps does. -/
private theorem mapM_raises {α β : Type} {step : α → Except Exn β} {items : List α} {item : α}
    (among : item ∈ items) (raises : ∃ exn, step item = .error exn) :
    ∃ exn, items.mapM step = .error exn := by
  induction items with
  | nil => cases among
  | cons first items ih =>
      rw [List.mapM_cons]
      cases stepped : step first with
      | error exn => exact ⟨exn, rfl⟩
      | ok result =>
          obtain rfl | later := List.mem_cons.1 among
          · obtain ⟨exn, raised⟩ := raises
            rw [stepped] at raised
            cases raised
          · obtain ⟨exn, raised⟩ := ih later
            exact ⟨exn, by rw [raised]; rfl⟩

/-- An update of a further value of a name that is not there raises.  It leaves the name in the index, and
the names can no longer be processed. -/
theorem update_leftover {name : Text} {n : Positive} (absent : ¬table.exist name) (further : n.1 ≠ 1)
    (value : Text) :
    ∃ after, update name value n table = .error .constraintError after ∧ after.exist name ∧
      after.nameCount = table.nameCount + 1 ∧
      ∀ separator, ∃ exn, after.iterateNames separator = .error exn := by
  have large : 1 < n.1 := lt_of_le_of_ne n.2.1 (Ne.symm further)
  have not_there : table.normalizeName name ∉ table.index := fun there =>
    absent (Std.TreeMap.contains_iff_mem.2 there)
  have raised : update name value n table = .error .constraintError
      { table with index := table.index.insertIfNew (table.normalizeName name) [] } :=
    if_pos ⟨absent, large⟩
  refine ⟨_, raised, Std.TreeMap.contains_insertIfNew_self, ?_, fun separator => ?_⟩
  · exact Std.TreeMap.size_insertIfNew.trans (if_neg not_there)
  · have leftover : (table.normalizeName name, []) ∈
        (table.index.insertIfNew (table.normalizeName name) []).toList := by
      rw [Std.TreeMap.mem_toList_iff_getElem?_eq_some, Std.TreeMap.getElem?_insertIfNew,
        if_pos ⟨Std.ReflCmp.compare_self, not_there⟩]
    exact mapM_raises leftover ⟨.constraintError, rfl⟩

/-- A failed update leaves the table as it was exactly for the first value of a name, and for names that
are there. -/
theorem update_atomic_iff (table : Table) (name value : Text) (n : Positive) :
    (∀ exn after, update name value n table = .error exn after → after = table) ↔
      n.1 = 1 ∨ table.exist name := by
  constructor
  · intro atomic
    by_contra unsound
    obtain ⟨further, absent⟩ := not_or.1 unsound
    obtain ⟨after, raised, there, -⟩ := update_leftover absent further value
    rw [atomic _ _ raised] at there
    exact absent there
  · exact fun sound exn after raised => update_unchanged sound raised

/-- An update of the second value of a name in an empty table leaves the name behind. -/
theorem update_empty :
    ∃ after, update [65] [1] ⟨2, by decide⟩ {} = .error .constraintError after ∧ after ≠ {} ∧
      after.exist [65] ∧ after.count = 0 ∧ after.nameCount = 1 ∧
      ∃ exn, after.iterateNames [] = .error exn := by
  obtain ⟨after, raised, there, count_eq, fails⟩ :=
    @update_leftover {} [65] ⟨2, by decide⟩ (by decide +kernel) (by decide) [1]
  refine ⟨after, raised, ?_, there, ?_, count_eq, fails []⟩
  · rintro rfl
    exact absurd there (by decide +kernel)
  · cases raised
    rfl

end Table
end Containers
end AdaWebServer

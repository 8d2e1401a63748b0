import AdaWebServer.Http2.Hpack.Table

/-!
# Consistency of the dynamic table

The counters agree with the vector of entries, and every key of the map designates, through the
rank arithmetic, an entry of the vector that has this key.  Insertions and evictions keep this, and
the entries that remain are the longest recent part that fits.
-/

namespace AdaWebServer
namespace Http2
namespace Hpack

open WeightedQueue

theorem nameValue_eq_ok {name value : Text} (name_ne : name ≠ []) :
    nameValue name value = .ok ⟨name, value, name_ne⟩ := dif_pos name_ne

@[simp]
theorem nameValue_nil (value : Text) : nameValue [] value = .error .constraintError := rfl

theorem NameValue.heavy (nv : NameValue) : 33 ≤ nv.size := by
  have := List.length_pos_of_ne_nil nv.name_ne
  unfold size
  omega

theorem nvSize_of_le {nv : NameValue} (small : nv.size ≤ naturalLast) : nvSize nv = .ok nv.size :=
  positive_of_le (le_trans (by decide) nv.heavy) small

theorem nvSize_of_gt {nv : NameValue} (large : naturalLast < nv.size) :
    nvSize nv = .error .constraintError := positive_of_gt large

theorem NameValue.mem_keys_iff {nv : NameValue} {key : Text} :
    key ∈ nv.keys ↔ key = nv.name ∨ nv.value ≠ [] ∧ key = pairKey nv.name nv.value := by
  unfold keys
  split
  · next silent => simp [silent]
  · next valued => simp [valued]

/-- An inserted entry is found under its keys; the other keys are left alone. -/
theorem lookup_includeKeys (tNI : NameIndex) (nv : NameValue) (index : Nat) (key : Text) :
    (includeKeys tNI nv index).lookup key =
      if key ∈ nv.keys then some index else tNI.lookup key := by
  unfold includeKeys
  by_cases valued : nv.value = []
  · by_cases named : key = nv.name
    · subst named
      simp [valued, NameValue.keys]
    · simp [valued, NameValue.keys, named, AList.lookup_insert_ne named]
  · by_cases paired : key = pairKey nv.name nv.value
    · subst paired
      simp [valued, NameValue.keys]
    · by_cases named : key = nv.name
      · subst named
        simp [valued, NameValue.keys, AList.lookup_insert_ne paired]
      · simp [valued, NameValue.keys, named, paired, AList.lookup_insert_ne paired,
          AList.lookup_insert_ne named]

namespace DynamicTable

/-- The entry that has the given rank. -/
def entryOfRank (self : DynamicTable) (rank : Nat) : Option NameValue :=
  if self.rank - self.length < rank then self.tIN[rank - (self.rank - self.length) - 1]? else none

theorem entryOfRank_eq_some_iff {self : DynamicTable} {rank : Nat} {item : NameValue} :
    self.entryOfRank rank = some item ↔ self.rank - self.length < rank ∧
      self.tIN[rank - (self.rank - self.length) - 1]? = some item := by
  unfold entryOfRank
  split
  · next recent => simp [recent]
  · next old => simp [old]

/-- The three parts of the table agree. -/
structure Consistent (table : DynamicTable) : Prop where
  /-- The size is the sum over the entries. -/
  size_eq : table.size = total NameValue.size table.tIN
  /-- The length is the number of entries. -/
  length_eq : table.length = table.tIN.length
  /-- Every entry has a rank. -/
  length_le_rank : table.length ≤ table.rank
  /-- The size is a `Natural`. -/
  size_le : table.size ≤ naturalLast
  /-- A key of the map designates an entry that has it. -/
  designates : ∀ {key : Text} {rank : Nat}, table.tNI.lookup key = some rank →
    ∃ item, table.entryOfRank rank = some item ∧ key ∈ item.keys

theorem consistent_empty : Consistent empty where
  size_eq := rfl
  length_eq := rfl
  length_le_rank := le_rfl
  size_le := Nat.zero_le _
  designates := by
    intro key rank found
    simp [empty] at found

theorem Consistent.heavy {table : DynamicTable} (consistent : Consistent table) :
    33 * table.length ≤ table.size := by
  rw [consistent.length_eq, consistent.size_eq]
  exact length_mul_le_total NameValue.heavy table.tIN

/-- An entry of the vector has a rank within the table. -/
theorem Consistent.rank_le {table : DynamicTable} (consistent : Consistent table) {rank : Nat}
    {item : NameValue} (found : table.entryOfRank rank = some item) :
    table.rank - table.length < rank ∧ rank ≤ table.rank := by
  obtain ⟨recent, position⟩ := entryOfRank_eq_some_iff.mp found
  have within := (List.getElem?_eq_some_iff.mp position).1
  have := consistent.length_le_rank
  have := consistent.length_eq
  exact ⟨recent, by omega⟩

/-! ## Indexes -/

theorem entry_static {self : DynamicTable} {index : Nat} (small : index ≤ staticTableSize)
    (what : String) : self.entry what index = entryAt static.tIN index := if_pos small

theorem entry_dynamic {table : DynamicTable} (consistent : Consistent table) (index : Nat)
    (large : staticTableSize < index) (within : index ≤ staticTableSize + table.length)
    (what : String) :
    ∃ item, table.tIN[staticTableSize + table.length - index]? = some item ∧
      table.entry what index = .ok item := by
  have length_eq := consistent.length_eq
  have present : staticTableSize + table.length - index < table.tIN.length := by omega
  refine ⟨_, List.getElem?_eq_getElem present, ?_⟩
  have position : table.dIndex index - 1 = staticTableSize + table.length - index := by
    unfold dIndex
    omega
  rw [entry, if_neg (by omega), if_pos (by omega), entryAt, position,
    List.getElem?_eq_getElem present]

theorem entry_beyond {self : DynamicTable} {index : Nat}
    (large : staticTableSize + self.length < index) (what : String) :
    self.entry what index =
      raiseProtocolError .protocolError (self.wrongIndex what index) := by
  rw [entry, if_neg (by omega), if_neg (by omega)]

/-- The index computed from a rank leads back to the entry of that rank. -/
theorem entry_indexOfRank {table : DynamicTable} (consistent : Consistent table) {rank : Nat}
    {item : NameValue} (found : table.entryOfRank rank = some item) :
    ∃ index, table.indexOfRank rank = .ok index ∧ staticTableSize < index ∧
      index ≤ staticTableSize + table.length ∧ ∀ what, table.entry what index = .ok item := by
  obtain ⟨recent, past⟩ := consistent.rank_le found
  have length_le := consistent.length_le_rank
  have heavy := consistent.heavy
  have size_le := consistent.size_le
  have small : table.rank + staticTableSize + 1 - rank ≤ naturalLast := by
    simp only [staticTableSize, naturalLast] at *
    omega
  refine ⟨table.rank + staticTableSize + 1 - rank, ?_, by omega, by omega, ?_⟩
  · rw [indexOfRank, naturalSub_of_le (by omega), ok_bind, natural_of_le small]
  · intro what
    obtain ⟨other, position, entered⟩ := entry_dynamic consistent
      (table.rank + staticTableSize + 1 - rank) (by omega) (by omega) what
    have designated := (entryOfRank_eq_some_iff.mp found).2
    have same : staticTableSize + table.length - (table.rank + staticTableSize + 1 - rank) =
        rank - (table.rank - table.length) - 1 := by omega
    rw [same, designated] at position
    rw [entered, Option.some.inj position]

theorem Consistent.index_le {table : DynamicTable} (consistent : Consistent table) :
    staticTableSize + table.length ≤ naturalLast := by
  have heavy := consistent.heavy
  have size_le := consistent.size_le
  simp only [staticTableSize, naturalLast] at *
  omega

/-! ## Insertion -/

/-- What is recorded when an entry is appended. -/
def appended (self : DynamicTable) (item : NameValue) : DynamicTable where
  tIN := self.tIN ++ [item]
  tNI := includeKeys self.tNI item (self.rank + 1)
  size := self.size + item.size
  length := self.length + 1
  rank := self.rank + 1

/-- The counters can take one more entry. -/
def Takes (self : DynamicTable) (item : NameValue) : Prop :=
  self.size + item.size ≤ naturalLast ∧ self.rank + 1 ≤ naturalLast

instance (self : DynamicTable) (item : NameValue) : Decidable (self.Takes item) :=
  inferInstanceAs (Decidable (_ ∧ _))

theorem append_eq {table : DynamicTable} (consistent : Consistent table) (item : NameValue) :
    table.append item =
      if table.Takes item then .ok (table.appended item) else .error .constraintError := by
  have heavy := consistent.heavy
  have item_heavy := item.heavy
  have takes_iff : table.Takes item ↔
      table.size + item.size ≤ naturalLast ∧ table.rank + 1 ≤ naturalLast := Iff.rfl
  unfold append
  by_cases item_small : item.size ≤ naturalLast
  · rw [nvSize_of_le item_small, ok_bind]
    by_cases size_small : table.size + item.size ≤ naturalLast
    · rw [natural_of_le size_small, ok_bind, natural_of_le (by omega), ok_bind]
      by_cases rank_small : table.rank + 1 ≤ naturalLast
      · rw [natural_of_le rank_small, if_pos (takes_iff.mpr ⟨size_small, rank_small⟩)]
        rfl
      · rw [natural_of_gt (not_le.mp rank_small), if_neg (by rw [takes_iff]; omega)]
        rfl
    · rw [natural_of_gt (not_le.mp size_small), if_neg (by rw [takes_iff]; omega)]
      rfl
  · rw [nvSize_of_gt (not_le.mp item_small), if_neg (by rw [takes_iff]; omega)]
    rfl

theorem consistent_appended {table : DynamicTable} (consistent : Consistent table)
    {item : NameValue} (takes : table.Takes item) : Consistent (table.appended item) where
  size_eq := by simp [appended, consistent.size_eq]
  length_eq := by simp [appended, consistent.length_eq]
  length_le_rank := Nat.succ_le_succ consistent.length_le_rank
  size_le := takes.1
  designates := by
    intro key rank found
    have length_eq := consistent.length_eq
    have length_le := consistent.length_le_rank
    have same_base : table.rank + 1 - (table.length + 1) = table.rank - table.length := by omega
    simp only [appended, lookup_includeKeys] at found
    simp only [entryOfRank_eq_some_iff, appended, same_base]
    split at found
    · next recorded =>
        obtain rfl := Option.some.inj found
        have last : table.rank + 1 - (table.rank - table.length) - 1 = table.tIN.length := by omega
        refine ⟨item, ⟨by omega, ?_⟩, recorded⟩
        rw [last]
        simp
    · obtain ⟨old, designated, recorded⟩ := consistent.designates found
      have bounds := consistent.rank_le designated
      refine ⟨old, ⟨bounds.1, ?_⟩, recorded⟩
      rw [List.getElem?_append_left (by omega)]
      exact (entryOfRank_eq_some_iff.mp designated).2

/-- The table without its oldest entry. -/
def evicted (self : DynamicTable) (item : NameValue) (rest : List NameValue) : DynamicTable where
  tIN := rest
  tNI := (self.tNI.erase item.name).erase (pairKey item.name item.value)
  size := self.size - item.size
  length := self.length - 1
  rank := self.rank

/-- A lookup after an eviction. -/
theorem lookup_evicted (self : DynamicTable) (item : NameValue) (rest : List NameValue)
    (key : Text) :
    (self.evicted item rest).tNI.lookup key =
      if key = item.name ∨ key = pairKey item.name item.value then none
      else self.tNI.lookup key := by
  unfold evicted
  by_cases paired : key = pairKey item.name item.value
  · subst paired
    simp
  · rw [AList.lookup_erase_ne paired]
    by_cases named : key = item.name
    · subst named
      simp
    · rw [AList.lookup_erase_ne named, if_neg (by simp [paired, named])]

theorem consistent_evicted {table : DynamicTable} (consistent : Consistent table)
    {item : NameValue} {rest : List NameValue} (entries : table.tIN = item :: rest) :
    Consistent (table.evicted item rest) where
  size_eq := by
    have size_eq := consistent.size_eq
    rw [entries, total_cons] at size_eq
    simp only [evicted]
    omega
  length_eq := by
    have length_eq := consistent.length_eq
    rw [entries, List.length_cons] at length_eq
    simp only [evicted]
    omega
  length_le_rank := by
    have := consistent.length_le_rank
    simp only [evicted]
    omega
  size_le := le_trans (Nat.sub_le _ _) consistent.size_le
  designates := by
    intro key rank found
    rw [lookup_evicted] at found
    split at found
    · cases found
    · next kept =>
        obtain ⟨old, designated, recorded⟩ := consistent.designates found
        have bounds := consistent.rank_le designated
        have length_le := consistent.length_le_rank
        have length_eq := consistent.length_eq
        rw [entries, List.length_cons] at length_eq
        have designated := (entryOfRank_eq_some_iff.mp designated).2
        rw [entries] at designated
        have base : table.rank - (table.length - 1) = table.rank - table.length + 1 := by omega
        refine ⟨old, ?_, recorded⟩
        obtain ⟨position, position_eq⟩ : ∃ position,
            rank - (table.rank - table.length) - 1 = position := ⟨_, rfl⟩
        rw [position_eq] at designated
        cases position with
        | zero =>
            obtain rfl := Option.some.inj designated
            rw [NameValue.mem_keys_iff] at recorded
            exact absurd (recorded.imp id And.right) kept
        | succ position =>
            rw [List.getElem?_cons_succ] at designated
            have shifted : rank - (table.rank - (table.length - 1)) - 1 = position := by omega
            refine entryOfRank_eq_some_iff.mpr ⟨?_, ?_⟩
            · simp only [evicted]
              omega
            · simp only [evicted]
              rw [shifted, designated]

theorem cleanUp_of_le {maxSize : Nat} {self : DynamicTable} (fits : self.size ≤ maxSize)
    (tIN : List NameValue) : cleanUp maxSize tIN self = .ok self := by
  unfold cleanUp
  rw [if_neg (not_lt.mpr fits)]

theorem cleanUp_step {maxSize : Nat} {table : DynamicTable} (consistent : Consistent table)
    {item : NameValue} {rest : List NameValue} (entries : table.tIN = item :: rest)
    (large : maxSize < table.size) :
    cleanUp maxSize (item :: rest) table = cleanUp maxSize rest (table.evicted item rest) := by
  have size_eq := consistent.size_eq
  have size_le := consistent.size_le
  have length_eq := consistent.length_eq
  rw [entries, total_cons] at size_eq
  rw [entries, List.length_cons] at length_eq
  rw [cleanUp, if_pos large, nvSize_of_le (by omega), ok_bind, naturalSub_of_le (by omega), ok_bind,
    naturalSub_of_le (by omega), ok_bind]
  rfl

/-- The clean-up keeps the longest recent part that fits, and the keys of no evicted entry. -/
theorem cleanUp_spec {table : DynamicTable} (consistent : Consistent table) (maxSize : Nat) :
    ∃ after, cleanUp maxSize table.tIN table = .ok after ∧ Consistent after ∧
      after.tIN = trim NameValue.size maxSize table.tIN ∧ after.rank = table.rank ∧
      ∀ key, (∀ item rest, item :: rest <:+ table.tIN → after.tIN <:+ rest →
          key ≠ item.name ∧ key ≠ pairKey item.name item.value) →
        after.tNI.lookup key = table.tNI.lookup key := by
  obtain ⟨queue, entries⟩ : ∃ queue, table.tIN = queue := ⟨_, rfl⟩
  rw [entries]
  induction queue generalizing table with
  | nil =>
      have empty : table.size = 0 := by simpa [entries] using consistent.size_eq
      exact ⟨table, cleanUp_of_le (by omega) _, consistent, by simp [entries], rfl,
        fun _ _ => rfl⟩
  | cons item rest ih =>
      have size_eq := consistent.size_eq
      rw [entries] at size_eq
      by_cases fits : table.size ≤ maxSize
      · exact ⟨table, cleanUp_of_le fits _, consistent, by rw [trim_of_le (by omega), entries], rfl,
          fun _ _ => rfl⟩
      · obtain ⟨after, done, consistent', kept, same_rank, lookups⟩ :=
          ih (consistent_evicted consistent entries) rfl
        refine ⟨after, ?_, consistent', ?_, same_rank, ?_⟩
        · rw [cleanUp_step consistent entries (not_le.mp fits), done]
        · rw [kept, trim, if_pos (by omega)]
        · intro key spared
          rw [lookups key fun other others suffix => spared other others
            (suffix.trans (List.suffix_cons _ _)), lookup_evicted, if_neg]
          have suffix : after.tIN <:+ rest := kept ▸ trim_suffix _ _
          exact not_or.mpr (spared item rest List.suffix_rfl suffix)

/-- The clean-up leaves no key of an evicted entry in the map. -/
theorem cleanUp_forgets {table after : DynamicTable} (consistent : Consistent table)
    {maxSize : Nat} (done : cleanUp maxSize table.tIN table = .ok after) {key : Text} :
    (table.tNI.lookup key = none → after.tNI.lookup key = none) ∧
      ∀ item rest, item :: rest <:+ table.tIN → after.tIN <:+ rest →
        key = item.name ∨ key = pairKey item.name item.value → after.tNI.lookup key = none := by
  obtain ⟨queue, entries⟩ : ∃ queue, table.tIN = queue := ⟨_, rfl⟩
  rw [entries] at done ⊢
  induction queue generalizing table with
  | nil =>
      refine ⟨fun unknown => ?_, fun item rest suffix => ?_⟩
      · have empty : table.size = 0 := by simpa [entries] using consistent.size_eq
        rw [cleanUp_of_le (by omega)] at done
        cases done
        exact unknown
      · exact absurd (List.suffix_nil.mp suffix) (List.cons_ne_nil _ _)
  | cons oldest queue ih =>
      by_cases fits : table.size ≤ maxSize
      · rw [cleanUp_of_le fits] at done
        cases done
        refine ⟨id, fun item rest suffix later => ?_⟩
        have shorter := suffix.length_le
        have longer := later.length_le
        rw [entries] at longer
        simp only [List.length_cons] at shorter longer
        omega
      · rw [cleanUp_step consistent entries (not_le.mp fits)] at done
        obtain ⟨unknown_stays, forgets⟩ :=
          ih (consistent_evicted consistent entries) done rfl
        rw [lookup_evicted] at unknown_stays
        refine ⟨fun unknown => unknown_stays (by rw [unknown, ite_self]), ?_⟩
        intro item rest suffix later recorded
        obtain same | earlier := List.suffix_cons_iff.mp suffix
        · obtain ⟨rfl, rfl⟩ := List.cons.inj same
          exact unknown_stays (if_pos recorded)
        · exact forgets item rest earlier later recorded

/-- An insertion succeeds when the name is not empty and the counters can take the entry. -/
theorem insert_spec {table : DynamicTable} (consistent : Consistent table)
    (settings : Connection) {name value : Text} {item : NameValue}
    (built : nameValue (toLower name) value = .ok item) (takes : table.Takes item) :
    ∃ after, table.insert settings name value = .ok after ∧ Consistent after ∧
      after.tIN =
        trim NameValue.size settings.dynamicHeaderTableSize (table.tIN ++ [item]) ∧
      after.rank = table.rank + 1 ∧
      ∀ key, (∀ old rest, old :: rest <:+ table.tIN ++ [item] → after.tIN <:+ rest →
          key ≠ old.name ∧ key ≠ pairKey old.name old.value) →
        after.tNI.lookup key = if key ∈ item.keys then some (table.rank + 1)
          else table.tNI.lookup key := by
  obtain ⟨after, done, consistent', kept, same_rank, lookups⟩ :=
    cleanUp_spec (consistent_appended consistent takes) settings.dynamicHeaderTableSize
  refine ⟨after, ?_, consistent', kept, same_rank, ?_⟩
  · rw [insert, built, ok_bind, append_eq consistent, if_pos takes, ok_bind, done]
  · intro key spared
    rw [lookups key spared]
    exact lookup_includeKeys _ _ _ _

/-- An insertion leaves no key of an evicted entry in the map. -/
theorem insert_forgets {table after : DynamicTable} (consistent : Consistent table)
    {settings : Connection} {name value : Text} {item : NameValue}
    (built : nameValue (toLower name) value = .ok item) (takes : table.Takes item)
    (done : table.insert settings name value = .ok after) {old : NameValue} {rest : List NameValue}
    (suffix : old :: rest <:+ table.tIN ++ [item]) (later : after.tIN <:+ rest) {key : Text}
    (recorded : key = old.name ∨ key = pairKey old.name old.value) :
    after.tNI.lookup key = none := by
  rw [insert, built, ok_bind, append_eq consistent, if_pos takes, ok_bind] at done
  exact (cleanUp_forgets (consistent_appended consistent takes) done).2 old rest suffix later recorded

/-- An insertion that fails raises `Constraint_Error`. -/
theorem insert_refused {table : DynamicTable} (consistent : Consistent table)
    (settings : Connection) {name value : Text}
    (refused : ∀ item, nameValue (toLower name) value = .ok item → ¬ table.Takes item) :
    table.insert settings name value = .error .constraintError := by
  rw [insert]
  by_cases name_ne : toLower name = []
  · rw [name_ne, nameValue_nil]
    rfl
  · rw [nameValue_eq_ok name_ne, ok_bind, append_eq consistent,
      if_neg (refused _ (nameValue_eq_ok name_ne))]
    rfl

/-- What a successful insertion has done. -/
theorem insert_eq_ok {table after : DynamicTable} (consistent : Consistent table)
    {settings : Connection} {name value : Text}
    (done : table.insert settings name value = .ok after) :
    ∃ item : NameValue, item.name = toLower name ∧ item.value = value ∧ table.Takes item ∧
      Consistent after ∧
      after.tIN = trim NameValue.size settings.dynamicHeaderTableSize (table.tIN ++ [item]) ∧
      after.rank = table.rank + 1 := by
  by_cases accepted : ∃ item, nameValue (toLower name) value = .ok item ∧ table.Takes item
  · obtain ⟨item, built, takes⟩ := accepted
    obtain ⟨other, other_done, consistent', kept, ranked, _⟩ :=
      insert_spec consistent settings built takes
    rw [done] at other_done
    cases other_done
    have fields : item.name = toLower name ∧ item.value = value := by
      unfold nameValue at built
      split at built
      · cases built
        exact ⟨rfl, rfl⟩
      · cases built
    exact ⟨item, fields.1, fields.2, takes, consistent', kept, ranked⟩
  · rw [insert_refused consistent settings fun item built takes =>
      accepted ⟨item, built, takes⟩] at done
    cases done

/-! ## Search -/

/-- A search succeeds with the pair or, failing that, with the name. -/
theorem findIndex_eq_some_iff {tNI : NameIndex} {name value : Text} {index : Nat} {both : Bool} :
    findIndex tNI name value = some (index, both) ↔
      if both then value ≠ [] ∧ tNI.lookup (pairKey name value) = some index
      else (value = [] ∨ tNI.lookup (pairKey name value) = none) ∧
        tNI.lookup name = some index := by
  unfold findIndex
  by_cases valued : value = []
  · cases both <;> simp [valued]
  · cases paired : tNI.lookup (pairKey name value) <;> cases both <;> simp [valued]

/-- Every key of the static map designates an entry of the static table that has it. -/
theorem static_designates {key : Text} {index : Nat} (found : static.tNI.lookup key = some index) :
    1 ≤ index ∧ index ≤ staticTableSize ∧
      ∃ item, static.tIN[index - 1]? = some item ∧ key ∈ item.keys := by
  have all : ∀ entry ∈ static.tNI.entries, 1 ≤ entry.2 ∧ entry.2 ≤ staticTableSize ∧
      ∃ item ∈ static.tIN[entry.2 - 1]?, entry.1 ∈ item.keys := by
    decide +kernel
  exact all ⟨key, index⟩ (AList.mem_lookup_iff.mp found)

theorem static_name_plain : ∀ item ∈ static.tIN, 61 ∉ item.name := by
  decide +kernel

/-- Pairs of names without an equals sign have different keys. -/
theorem pairKey_injective {name value name' value' : Text} (plain : 61 ∉ name)
    (plain' : 61 ∉ name') (same : pairKey name value = pairKey name' value') :
    name = name' ∧ value = value' := by
  unfold pairKey at same
  induction name generalizing name' with
  | nil =>
      cases name' with
      | nil => exact ⟨rfl, (List.cons.inj same).2⟩
      | cons c name' =>
          obtain ⟨rfl, _⟩ := List.cons.inj same
          exact absurd List.mem_cons_self plain'
  | cons c name ih =>
      cases name' with
      | nil =>
          obtain ⟨rfl, _⟩ := List.cons.inj same
          exact absurd List.mem_cons_self plain
      | cons c' name' =>
          obtain ⟨rfl, tails⟩ := List.cons.inj same
          obtain ⟨rfl, values⟩ := ih (fun member => plain (List.mem_cons_of_mem _ member))
            (fun member => plain' (List.mem_cons_of_mem _ member)) tails
          exact ⟨rfl, values⟩

theorem ne_pairKey {name name' value' : Text} (plain : 61 ∉ name) :
    name ≠ pairKey name' value' := by
  rintro rfl
  exact plain (by simp [pairKey])

theorem NameValue.name_of_mem_keys {item : NameValue} {name : Text} (plain : 61 ∉ name)
    (recorded : name ∈ item.keys) : item.name = name := by
  rcases NameValue.mem_keys_iff.mp recorded with named | ⟨_, paired⟩
  · exact named.symm
  · exact absurd paired (ne_pairKey plain)

/-- An entry found under a pair with a plain name has this name and this value. -/
theorem NameValue.pair_of_mem_keys {item : NameValue} {name value : Text} (plain : 61 ∉ name)
    (plain_item : 61 ∉ item.name) (recorded : pairKey name value ∈ item.keys) :
    item.name = name ∧ item.value = value := by
  rcases NameValue.mem_keys_iff.mp recorded with named | ⟨_, paired⟩
  · exact absurd named.symm (ne_pairKey plain_item)
  · obtain ⟨names, values⟩ := pairKey_injective plain plain_item paired
    exact ⟨names.symm, values.symm⟩

/-- The name is in the static table. -/
def StaticName (name : Text) : Prop := (static.tNI.lookup name).isSome

/-- The pair is in the static table. -/
def StaticPair (name value : Text) : Prop :=
  value ≠ [] ∧ (static.tNI.lookup (pairKey name value)).isSome

instance (name : Text) : Decidable (StaticName name) := inferInstanceAs (Decidable (_ = true))

instance (name value : Text) : Decidable (StaticPair name value) :=
  inferInstanceAs (Decidable (_ ∧ _))

/-- What `Get_Name_Value_Index` can return for a lower-case name without an equals sign. -/
inductive LookupResult (settings : Connection) (table : DynamicTable) (name value : Text) : Prop
  /-- The index of an entry with the name and the value. -/
  | both {index : Nat} {item : NameValue}
      (found : table.getNameValueIndex settings name value = .ok (index, true, table))
      (nonzero : 1 ≤ index) (small : index ≤ naturalLast)
      (designated : ∀ what, table.entry what index = .ok item)
      (names : item.name = name) (values : item.value = value)
      (origin : StaticPair name value ∨ item ∈ table.tIN)
  /-- The index of an entry with the name. -/
  | named {index : Nat} {item : NameValue}
      (found : table.getNameValueIndex settings name value = .ok (index, false, table))
      (nonzero : 1 ≤ index) (small : index ≤ naturalLast)
      (designated : ∀ what, table.entry what index = .ok item)
      (names : item.name = name)
      (origin : StaticName name ∨ item ∈ table.tIN)
      (unpaired : ¬ StaticPair name value)
  /-- Zero; the entry is inserted. -/
  | unknown
      (inserted : table.getNameValueIndex settings name value =
        table.insert settings name value >>= fun inserted => .ok (0, false, inserted))
      (unnamed : ¬ StaticName name) (unpaired : ¬ StaticPair name value)

private theorem entry_of_static {table : DynamicTable} {index : Nat} {item : NameValue}
    (small : index ≤ staticTableSize) (designated : static.tIN[index - 1]? = some item)
    (what : String) : table.entry what index = .ok item := by
  rw [entry_static small, entryAt, designated]

/-- The search for a pair or a name, case by case. -/
theorem lookupResult {table : DynamicTable} (consistent : Consistent table)
    (plain_entries : ∀ item ∈ table.tIN, 61 ∉ item.name) (settings : Connection)
    {name : Text} (lower : toLower name = name) (plain : 61 ∉ name) (value : Text) :
    LookupResult settings table name value := by
  have index_le := consistent.index_le
  cases static_found : findIndex static.tNI name value with
  | some result =>
      obtain ⟨index, both⟩ := result
      have found : table.getNameValueIndex settings name value = .ok (index, both, table) := by
        rw [getNameValueIndex, lower, static_found]
      rw [findIndex_eq_some_iff] at static_found
      cases both with
      | true =>
          obtain ⟨valued, located⟩ := static_found
          obtain ⟨nonzero, small, item, designated, recorded⟩ := static_designates located
          obtain ⟨names, values⟩ := NameValue.pair_of_mem_keys plain
            (static_name_plain item (List.mem_of_getElem? designated)) recorded
          exact .both found nonzero (by omega) (entry_of_static small designated) names values
            (.inl ⟨valued, by rw [located]; rfl⟩)
      | false =>
          obtain ⟨unpaired, located⟩ := static_found
          obtain ⟨nonzero, small, item, designated, recorded⟩ := static_designates located
          refine .named found nonzero (by omega) (entry_of_static small designated)
            (NameValue.name_of_mem_keys plain recorded) (.inl (by rw [StaticName, located]; rfl)) ?_
          rintro ⟨valued, paired⟩
          rw [unpaired.resolve_left valued] at paired
          cases paired
  | none =>
      have unpaired : ¬ StaticPair name value := by
        rintro ⟨valued, paired⟩
        obtain ⟨index, located⟩ := Option.isSome_iff_exists.mp paired
        have : findIndex static.tNI name value = some (index, true) :=
          findIndex_eq_some_iff.mpr ⟨valued, located⟩
        rw [static_found] at this
        cases this
      cases dynamic_found : findIndex table.tNI name value with
      | some result =>
          obtain ⟨rank, both⟩ := result
          have recorded_at : ∃ key, table.tNI.lookup key = some rank ∧
              key = if both then pairKey name value else name := by
            rw [findIndex_eq_some_iff] at dynamic_found
            cases both
            · exact ⟨name, dynamic_found.2, rfl⟩
            · exact ⟨_, dynamic_found.2, rfl⟩
          obtain ⟨key, located, key_eq⟩ := recorded_at
          obtain ⟨item, designated, recorded⟩ := consistent.designates located
          obtain ⟨index, index_eq, large, within, entered⟩ := entry_indexOfRank consistent designated
          have member : item ∈ table.tIN :=
            List.mem_of_getElem? (entryOfRank_eq_some_iff.mp designated).2
          have found : table.getNameValueIndex settings name value = .ok (index, both, table) := by
            rw [getNameValueIndex, lower, static_found]
            simp only []
            rw [dynamic_found]
            simp only [index_eq, ok_bind, pure_eq_ok]
          cases both with
          | true =>
              subst key_eq
              obtain ⟨names, values⟩ :=
                NameValue.pair_of_mem_keys plain (plain_entries item member) recorded
              exact .both found (by omega) (by omega) entered names values (.inr member)
          | false =>
              subst key_eq
              exact .named found (by omega) (by omega) entered
                (NameValue.name_of_mem_keys plain recorded) (.inr member) unpaired
      | none =>
          refine .unknown ?_ ?_ unpaired
          · rw [getNameValueIndex, lower, static_found]
            simp only []
            rw [dynamic_found]
            rfl
          · intro named
            obtain ⟨index, located⟩ := Option.isSome_iff_exists.mp named
            have : ∃ result, findIndex static.tNI name value = some result := by
              unfold findIndex
              split
              · exact ⟨_, rfl⟩
              · rw [located]
                exact ⟨_, rfl⟩
            rw [static_found] at this
            simp at this

end DynamicTable
end Hpack
end Http2
end AdaWebServer

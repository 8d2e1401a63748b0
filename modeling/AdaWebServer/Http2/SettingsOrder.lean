import AdaWebServer.Http2.ControlFrame
import Mathlib.Data.List.Perm.Basic

/-!
# Order of the entries of a settings frame

Reading a settings frame drops its unknown entries: the last entry of the frame moves to the place
of an unknown one.  Every known entry is kept, but not always in the order of the wire, and its
value is recorded only when it is a `Natural`.
-/

namespace AdaWebServer
namespace Http2

/-- The entries of the payload of a frame, as they are on the wire. -/
def wireSettings (octets : Octets) : List (Nat × UInt32) :=
  let length := bigEndian (octets.take 3)
  Frame.rawSettings (length / 6) ((octets.drop 9).take length)

/-- The setting of an entry, if its identifier is known. -/
def settingOf (entry : Nat × UInt32) : Option SettingsPayload :=
  (Frame.settingsKind entry.1).map fun id => ⟨id, entry.2⟩

/-- The entries whose identifier is known, in the order of the wire. -/
def recognised (entries : List (Nat × UInt32)) : SettingsSet := entries.filterMap settingOf

/-- The number of entries whose identifier is unknown. -/
def unknownIn (entries : List (Nat × UInt32)) : Nat :=
  entries.countP fun entry => (settingOf entry).isNone

/-- Record entries one after the other. -/
def applyEntries (values : SettingsKind → Nat) (entries : SettingsSet) : SettingsKind → Nat :=
  entries.foldl (fun values entry => Function.update values entry.id entry.value.toNat) values

/-- The entries that `Settings.Read` keeps. -/
def kept (entries : List (Nat × UInt32)) : SettingsSet :=
  Frame.knownSettings entries.length entries

/-- Where a known entry of the wire comes to when the unknown ones are dropped.  If there are as
many known entries as the first places of the frame, the entries at these places stay; a known
entry behind them takes the place of an unknown one in front, and the later it is the earlier the
place that it takes: there are as many unknown entries in front of the place as known ones behind
the entry. -/
def ComesTo (entries : List (Nat × UInt32)) (place after : Nat) : Prop :=
  let known := (recognised entries).length
  place < known ∧ after = place ∨
    known ≤ place ∧ after < known ∧ (∃ entry ∈ entries[after]?, settingOf entry = none) ∧
      unknownIn (entries.take after) = (recognised (entries.drop (place + 1))).length

/-- Of the entries of an identifier, the one that comes to the last place has the value of the last
one on the wire. -/
def OrderKept (entries : List (Nat × UInt32)) : Prop :=
  ∀ place after entry setting, entries[place]? = some entry → settingOf entry = some setting →
    ComesTo entries place after →
      (∀ place' after' entry' setting', entries[place']? = some entry' →
        settingOf entry' = some setting' → setting'.id = setting.id →
          ComesTo entries place' after' → after' ≤ after) →
        Connection.lastValue setting.id (recognised entries) = some setting.value.toNat

/-! ## The entries that are kept -/

theorem recognised_cons (id : Nat) (value : UInt32) (entries : List (Nat × UInt32)) :
    recognised ((id, value) :: entries) =
      match Frame.settingsKind id with
      | some kind => ⟨kind, value⟩ :: recognised entries
      | none => recognised entries := by
  cases known : Frame.settingsKind id <;> simp [recognised, settingOf, known]

theorem knownSettings_perm (bound : Nat) :
    ∀ {entries : List (Nat × UInt32)}, entries.length ≤ bound →
      (Frame.knownSettings bound entries).Perm (recognised entries) := by
  induction bound with
  | zero =>
      intro entries enough
      rw [List.eq_nil_of_length_eq_zero (Nat.le_zero.mp enough)]
      exact List.Perm.refl _
  | succ bound ih =>
      intro entries enough
      cases entries with
      | nil => exact List.Perm.refl _
      | cons entry entries =>
          obtain ⟨id, value⟩ := entry
          have shorter : entries.length ≤ bound := Nat.le_of_succ_le_succ enough
          rw [Frame.knownSettings, recognised_cons]
          cases Frame.settingsKind id with
          | some kind => exact (ih shorter).cons _
          | none =>
              cases moved : entries.getLast? with
              | none =>
                  rw [List.getLast?_eq_none_iff.mp moved]
                  exact List.Perm.refl _
              | some last =>
                  -- the last entry moves to the front of the others
                  obtain ⟨front, rfl⟩ := List.getLast?_eq_some_iff.mp moved
                  have rotated : (last :: (front ++ [last]).dropLast).Perm (front ++ [last]) := by
                    rw [List.dropLast_concat]
                    exact (List.perm_append_singleton last front).symm
                  exact (ih (rotated.length_eq.trans_le shorter)).trans (rotated.filterMap _)

theorem kept_perm (entries : List (Nat × UInt32)) : (kept entries).Perm (recognised entries) :=
  knownSettings_perm _ le_rfl

/-! ## The places of the entries that are kept -/

/-- The entries in front, with those that have moved in the places of the unknown ones. -/
def fill : List (Nat × UInt32) → SettingsSet → SettingsSet
  | [], _ => []
  | entry :: front, moved =>
      match settingOf entry with
      | some setting => setting :: fill front moved
      | none =>
          match moved with
          | next :: moved => next :: fill front moved
          | [] => []

theorem fill_cons_some {entry : Nat × UInt32} {setting : SettingsPayload}
    (known : settingOf entry = some setting) (front : List (Nat × UInt32)) (moved : SettingsSet) :
    fill (entry :: front) moved = setting :: fill front moved := by
  simp only [fill, known]

theorem fill_cons_none {entry : Nat × UInt32} (unknown : settingOf entry = none)
    (front : List (Nat × UInt32)) (next : SettingsPayload) (moved : SettingsSet) :
    fill (entry :: front) (next :: moved) = next :: fill front moved := by
  simp only [fill, unknown]

theorem recognised_cons_some {entry : Nat × UInt32} {setting : SettingsPayload}
    (known : settingOf entry = some setting) (entries : List (Nat × UInt32)) :
    recognised (entry :: entries) = setting :: recognised entries :=
  List.filterMap_cons_some known

theorem recognised_cons_none {entry : Nat × UInt32} (unknown : settingOf entry = none)
    (entries : List (Nat × UInt32)) : recognised (entry :: entries) = recognised entries :=
  List.filterMap_cons_none unknown

theorem recognised_append (front back : List (Nat × UInt32)) :
    recognised (front ++ back) = recognised front ++ recognised back :=
  List.filterMap_append

theorem recognised_length_le (entries : List (Nat × UInt32)) :
    (recognised entries).length ≤ entries.length :=
  List.length_filterMap_le _ _

theorem knownSettings_cons_some {bound : Nat} {entry : Nat × UInt32} {setting : SettingsPayload}
    (known : settingOf entry = some setting) (entries : List (Nat × UInt32)) :
    Frame.knownSettings (bound + 1) (entry :: entries) =
      setting :: Frame.knownSettings bound entries := by
  obtain ⟨id, id_eq, rfl⟩ := Option.map_eq_some_iff.mp known
  rw [Frame.knownSettings, id_eq]

theorem knownSettings_cons_none {bound : Nat} {entry : Nat × UInt32}
    (unknown : settingOf entry = none) (last : Nat × UInt32) (front : List (Nat × UInt32)) :
    Frame.knownSettings (bound + 1) (entry :: (front ++ [last])) =
      Frame.knownSettings bound (last :: front) := by
  rw [Frame.knownSettings, Option.map_eq_none_iff.mp unknown, List.getLast?_concat,
    List.dropLast_concat]

/-- The known entries behind the first places fill the holes in front, the last one first. -/
theorem knownSettings_eq_fill (bound : Nat) {entries : List (Nat × UInt32)}
    (enough : entries.length ≤ bound) :
    Frame.knownSettings bound entries =
      fill (entries.take (recognised entries).length)
        (recognised (entries.drop (recognised entries).length)).reverse := by
  induction bound generalizing entries with
  | zero =>
      rw [List.eq_nil_of_length_eq_zero (Nat.le_zero.mp enough)]
      rfl
  | succ bound ih =>
      cases entries with
      | nil => rfl
      | cons entry entries =>
          rw [List.length_cons, Nat.succ_le_succ_iff] at enough
          cases known : settingOf entry with
          | some setting =>
              rw [knownSettings_cons_some known, recognised_cons_some known, List.length_cons,
                List.take_succ_cons, List.drop_succ_cons, fill_cons_some known, ih enough]
          | none =>
              rcases List.eq_nil_or_concat' entries with rfl | ⟨front, last, rfl⟩
              · rw [recognised_cons_none known, Frame.knownSettings,
                  Option.map_eq_none_iff.mp known]
                rfl
              · rw [List.length_append, List.length_singleton] at enough
                have front_le := recognised_length_le front
                rw [knownSettings_cons_none known, ih (by rwa [List.length_cons]),
                  recognised_cons_none known, recognised_append]
                cases last_known : settingOf last with
                | some setting =>
                    -- the last entry fills the first hole
                    rw [recognised_cons_some last_known, recognised_cons_some last_known,
                      List.length_append, List.length_cons, List.length_cons, List.take_succ_cons,
                      List.drop_succ_cons]
                    show _ = fill ((entry :: (front ++ [last])).take
                      ((recognised front).length + 1))
                      (recognised ((entry :: (front ++ [last])).drop
                        ((recognised front).length + 1))).reverse
                    rw [List.take_succ_cons, List.drop_succ_cons,
                      List.take_append_of_le_length front_le,
                        List.drop_append_of_le_length front_le,
                      recognised_append, recognised_cons_some last_known, List.reverse_append,
                      fill_cons_some last_known]
                    exact (fill_cons_none known _ _ _).symm
                | none =>
                    -- the last entry is dropped in its turn
                    rw [recognised_cons_none last_known, recognised_cons_none last_known]
                    show _ = fill ((entry :: (front ++ [last])).take
                        (recognised front ++ []).length)
                      (recognised ((entry :: (front ++ [last])).drop
                        (recognised front ++ []).length)).reverse
                    rw [List.append_nil]
                    cases count_eq : (recognised front).length with
                    | zero => rfl
                    | succ count =>
                        have count_le : count ≤ front.length := by omega
                        rw [List.take_succ_cons, List.drop_succ_cons, List.take_succ_cons,
                          List.drop_succ_cons, List.take_append_of_le_length count_le,
                          List.drop_append_of_le_length count_le, recognised_append,
                          recognised_cons_none last_known]
                        show _ = fill _ (recognised _ ++ []).reverse
                        rw [List.append_nil]
                        simp only [fill, last_known, known]

/-- What is at a place: the known entry that was there, or one that has moved. -/
theorem fill_getElem? {front : List (Nat × UInt32)} {moved : SettingsSet} {place : Nat}
    {entry : Nat × UInt32} (there : front[place]? = some entry)
    (enough : unknownIn (front.take place) ≤ moved.length) :
    (fill front moved)[place]? = (settingOf entry).or moved[unknownIn (front.take place)]? := by
  induction front generalizing moved place with
  | nil => cases there
  | cons first front ih =>
      cases place with
      | zero =>
          obtain rfl : first = entry := Option.some.inj there
          cases known : settingOf first with
          | some setting => simp [fill, known]
          | none => cases moved <;> simp [fill, known, unknownIn]
      | succ place =>
          rw [List.getElem?_cons_succ] at there
          rw [List.take_succ_cons, unknownIn, List.countP_cons, ← unknownIn] at enough ⊢
          cases known : settingOf first with
          | some setting =>
              rw [known] at enough
              rw [fill_cons_some known, List.getElem?_cons_succ]
              exact ih there enough
          | none =>
              rw [known] at enough
              cases moved with
              | nil => exact absurd enough (Nat.not_succ_le_zero _)
              | cons next moved =>
                  rw [fill_cons_none known, List.getElem?_cons_succ]
                  exact (ih there (Nat.le_of_succ_le_succ enough)).trans (by rfl)

theorem unknownIn_add_recognised (entries : List (Nat × UInt32)) :
    unknownIn entries + (recognised entries).length = entries.length := by
  induction entries with
  | nil => rfl
  | cons entry entries ih =>
      rw [unknownIn, List.countP_cons, ← unknownIn]
      cases known : settingOf entry with
      | some setting =>
          rw [recognised_cons_some known, List.length_cons, List.length_cons, ← ih]
          simp only [Option.isNone_some, Bool.false_eq_true, if_false]
          omega
      | none =>
          rw [recognised_cons_none known, List.length_cons, ← ih]
          simp only [Option.isNone_none, if_true]
          omega

/-- There are as many holes in front as known entries behind. -/
theorem unknownIn_take (entries : List (Nat × UInt32)) (place : Nat) :
    unknownIn ((entries.take (recognised entries).length).take place) ≤
      (recognised (entries.drop (recognised entries).length)).reverse.length := by
  have fewer : unknownIn ((entries.take (recognised entries).length).take place) ≤
      unknownIn (entries.take (recognised entries).length) :=
    (List.take_sublist _ _).countP_le
  have front := unknownIn_add_recognised (entries.take (recognised entries).length)
  have both := congrArg List.length (recognised_append (entries.take (recognised entries).length)
    (entries.drop (recognised entries).length))
  have short := recognised_length_le entries
  rw [List.take_append_drop, List.length_append] at both
  rw [List.length_take, Nat.min_eq_left short] at front
  rw [List.length_reverse]
  omega

/-- A known entry counted from the end. -/
theorem reverse_getElem? {entries : List (Nat × UInt32)} {place : Nat} {entry : Nat × UInt32}
    {setting : SettingsPayload} (there : entries[place]? = some entry)
    (known : settingOf entry = some setting) :
    (recognised entries).reverse[(recognised (entries.drop (place + 1))).length]? =
      some setting := by
  obtain ⟨within, rfl⟩ := List.getElem?_eq_some_iff.mp there
  have split : entries.take place ++ entries[place] :: entries.drop (place + 1) = entries := by
    rw [List.getElem_cons_drop, List.take_append_drop]
  calc (recognised entries).reverse[(recognised (entries.drop (place + 1))).length]?
    _ = ((recognised (entries.drop (place + 1))).reverse ++
          setting :: (recognised (entries.take place)).reverse)[
            (recognised (entries.drop (place + 1))).reverse.length]? := by
        rw [List.length_reverse]
        congr 1
        conv_lhs => rw [← split]
        rw [recognised_append, recognised_cons_some known, List.reverse_append,
          List.reverse_cons, List.append_assoc]
        rfl
    _ = some setting := by
        rw [List.getElem?_append_right le_rfl, Nat.sub_self]
        rfl

/-- Every number of known entries that are left is that behind a known entry. -/
theorem exists_known_of_lt {entries : List (Nat × UInt32)} {count : Nat}
    (few : count < (recognised entries).length) :
    ∃ place entry setting, entries[place]? = some entry ∧ settingOf entry = some setting ∧
      (recognised (entries.drop (place + 1))).length = count := by
  induction entries with
  | nil => exact absurd few (Nat.not_lt_zero _)
  | cons entry entries ih =>
      by_cases later : count < (recognised entries).length
      · obtain ⟨place, other, setting, there, known, behind⟩ := ih later
        exact ⟨place + 1, other, setting, there, known, behind⟩
      · cases known : settingOf entry with
        | some setting =>
            rw [recognised_cons_some known, List.length_cons] at few
            exact ⟨0, entry, setting, rfl, known, by
              rw [List.drop_succ_cons, List.drop_zero]
              omega⟩
        | none =>
            rw [recognised_cons_none known] at few
            exact absurd few later

/-- A known entry is found where it comes to. -/
theorem kept_getElem? {entries : List (Nat × UInt32)} {place after : Nat} {entry : Nat × UInt32}
    {setting : SettingsPayload} (there : entries[place]? = some entry)
    (known : settingOf entry = some setting) (comes : ComesTo entries place after) :
    (kept entries)[after]? = some setting := by
  rw [kept, knownSettings_eq_fill _ le_rfl]
  obtain ⟨front, rfl⟩ | ⟨back, within, ⟨hole, at_hole, unknown⟩, behind⟩ := comes
  · have in_front : (entries.take (recognised entries).length)[after]? = some entry := by
      rw [List.getElem?_take_of_lt front, there]
    rw [fill_getElem? in_front (unknownIn_take _ _), known, Option.some_or]
  · have in_front : (entries.take (recognised entries).length)[after]? = some hole := by
      rw [List.getElem?_take_of_lt within, at_hole]
    have in_back : (entries.drop (recognised entries).length)[
        place - (recognised entries).length]? = some entry := by
      rw [List.getElem?_drop, Nat.add_sub_cancel' back, there]
    have moved := reverse_getElem? in_back known
    rw [List.drop_drop, show (recognised entries).length +
      (place - (recognised entries).length + 1) = place + 1 by omega, ← behind] at moved
    rw [fill_getElem? in_front (unknownIn_take _ _), unknown, Option.none_or, List.take_take,
      Nat.min_eq_left within.le, moved]

/-- What is kept at a place has come there. -/
theorem exists_comesTo {entries : List (Nat × UInt32)} {after : Nat} {setting : SettingsPayload}
    (there : (kept entries)[after]? = some setting) :
    ∃ place entry, entries[place]? = some entry ∧ settingOf entry = some setting ∧
      ComesTo entries place after := by
  have within : after < (recognised entries).length := by
    rw [← (kept_perm entries).length_eq]
    exact (List.getElem?_eq_some_iff.mp there).1
  have inside : after < entries.length := within.trans_le (recognised_length_le entries)
  have at_after : entries[after]? = some entries[after] := List.getElem?_eq_getElem inside
  obtain ⟨place, entry, other, at_place, known, comes⟩ : ∃ place entry other,
      entries[place]? = some entry ∧ settingOf entry = some other ∧
        ComesTo entries place after := by
    cases known : settingOf entries[after] with
    | some other => exact ⟨after, _, other, at_after, known, .inl ⟨within, rfl⟩⟩
    | none =>
        have holes := unknownIn_take entries (after + 1)
        rw [List.take_take, Nat.min_eq_left within, List.length_reverse,
          ← List.take_append_getElem inside, unknownIn, List.countP_append, ← unknownIn,
          List.countP_singleton, known] at holes
        obtain ⟨place, entry, other, at_place, other_known, behind⟩ := exists_known_of_lt
          (Nat.lt_of_succ_le holes)
        rw [List.getElem?_drop] at at_place
        rw [List.drop_drop, ← Nat.add_assoc] at behind
        exact ⟨_, entry, other, at_place, other_known, .inr ⟨Nat.le_add_right _ _, within,
          ⟨_, at_after, known⟩, behind.symm⟩⟩
  rw [kept_getElem? at_place known comes, Option.some_inj] at there
  exact ⟨place, entry, at_place, there ▸ known, comes⟩

theorem lastValue_eq_none_iff {id : SettingsKind} {entries : SettingsSet} :
    Connection.lastValue id entries = none ↔ ∀ entry ∈ entries, entry.id ≠ id := by
  induction entries with
  | nil => simp [Connection.lastValue]
  | cons entry entries ih =>
      simp only [Connection.lastValue, Option.or_eq_none_iff, ih, List.mem_cons,
        forall_eq_or_imp]
      by_cases same : entry.id = id <;> simp [same]

/-- The entry of an identifier with the greatest place has its last value. -/
theorem lastValue_of_greatest {entries : SettingsSet} {place : Nat} {entry : SettingsPayload}
    (there : entries[place]? = some entry)
    (greatest : ∀ later other, entries[later]? = some other → other.id = entry.id →
      later ≤ place) :
    Connection.lastValue entry.id entries = some entry.value.toNat := by
  induction entries generalizing place with
  | nil => cases there
  | cons first entries ih =>
      rw [Connection.lastValue]
      cases place with
      | zero =>
          obtain rfl : first = entry := Option.some.inj there
          have none_later : Connection.lastValue first.id entries = none := by
            rw [lastValue_eq_none_iff]
            intro other member same
            obtain ⟨later, at_later⟩ := List.mem_iff_getElem?.mp member
            exact absurd (greatest (later + 1) other at_later same) (Nat.not_succ_le_zero _)
          rw [none_later, if_pos rfl, Option.none_or]
      | succ place =>
          rw [ih there fun later other at_later same =>
            Nat.le_of_succ_le_succ (greatest (later + 1) other at_later same), Option.some_or]

/-- An identifier with entries has one with the greatest place. -/
theorem exists_greatest {entries : SettingsSet} {id : SettingsKind}
    (present : ∃ entry ∈ entries, entry.id = id) :
    ∃ (place : Nat) (entry : SettingsPayload), entries[place]? = some entry ∧ entry.id = id ∧
      ∀ (later : Nat) (other : SettingsPayload), entries[later]? = some other → other.id = id →
        later ≤ place := by
  induction entries with
  | nil =>
      obtain ⟨entry, member, _⟩ := present
      exact absurd member List.not_mem_nil
  | cons first entries ih =>
      by_cases again : ∃ entry ∈ entries, entry.id = id
      · obtain ⟨place, entry, there, same, greatest⟩ := ih again
        refine ⟨place + 1, entry, there, same, fun later other at_later other_same => ?_⟩
        cases later with
        | zero => exact Nat.zero_le _
        | succ later => exact Nat.succ_le_succ (greatest later other at_later other_same)
      · obtain ⟨entry, member, same⟩ := present
        obtain rfl | later := List.mem_cons.mp member
        · refine ⟨0, entry, rfl, same, fun later other at_later other_same => ?_⟩
          cases later with
          | zero => exact le_rfl
          | succ later =>
              exact absurd ⟨other, List.mem_of_getElem? at_later, other_same⟩ again
        · exact absurd ⟨entry, later, same⟩ again

/-- The order is kept exactly when the last values of what is kept are those of the wire. -/
theorem orderKept_iff (entries : List (Nat × UInt32)) :
    OrderKept entries ↔ ∀ id, Connection.lastValue id (kept entries) =
      Connection.lastValue id (recognised entries) := by
  constructor
  · intro order id
    by_cases present : ∃ setting ∈ kept entries, setting.id = id
    · obtain ⟨after, setting, there, rfl, greatest⟩ := exists_greatest present
      obtain ⟨place, entry, at_place, known, comes⟩ := exists_comesTo there
      rw [lastValue_of_greatest there greatest]
      refine (order place after entry setting at_place known comes ?_).symm
      intro place' after' entry' setting' at_place' known' same comes'
      exact greatest after' setting' (kept_getElem? at_place' known' comes') same
    · have absent : ∀ setting ∈ kept entries, setting.id ≠ id := fun setting member same =>
        present ⟨setting, member, same⟩
      rw [lastValue_eq_none_iff.mpr absent, lastValue_eq_none_iff.mpr fun setting member =>
        absent setting ((kept_perm entries).mem_iff.mpr member)]
  · intro same place after entry setting at_place known comes greatest
    rw [← same]
    refine lastValue_of_greatest (kept_getElem? at_place known comes) ?_
    intro later other at_later other_same
    obtain ⟨place', entry', at_place', known', comes'⟩ := exists_comesTo at_later
    exact greatest place' later entry' other at_place' known' other_same comes'

/-- Entries recorded one after the other leave the last value of every identifier. -/
theorem applyEntries_apply (values : SettingsKind → Nat) (entries : SettingsSet)
    (id : SettingsKind) :
    applyEntries values entries id = (Connection.lastValue id entries).getD (values id) := by
  induction entries generalizing values with
  | nil => rfl
  | cons entry entries ih =>
      rw [applyEntries, List.foldl_cons, ← applyEntries, ih, Connection.lastValue]
      cases Connection.lastValue id entries with
      | some value => rfl
      | none =>
          by_cases same : entry.id = id
          · subst same
            simp
          · simp [same, Function.update_of_ne (Ne.symm same)]

/-- Two orders of the same entries leave the same values exactly when the last values agree. -/
theorem applyEntries_perm_iff {values : SettingsKind → Nat} {left right : SettingsSet}
    (perm : left.Perm right) :
    applyEntries values left = applyEntries values right ↔
      ∀ id, Connection.lastValue id left = Connection.lastValue id right := by
  rw [funext_iff]
  refine forall_congr' fun id => ?_
  have present : Connection.lastValue id left = none ↔ Connection.lastValue id right = none := by
    simp only [lastValue_eq_none_iff, perm.mem_iff]
  rw [applyEntries_apply, applyEntries_apply]
  cases left_value : Connection.lastValue id left with
  | none => simp [present.mp left_value]
  | some value =>
      cases right_value : Connection.lastValue id right with
      | none =>
          rw [present.mpr right_value] at left_value
          cases left_value
      | some other => simp

/-! ## The frame that is read -/

@[simp]
theorem rawSettings_length (size : Nat) (octets : Octets) :
    (Frame.rawSettings size octets).length = size := by
  induction size generalizing octets with
  | zero => rfl
  | succ size ih => rw [Frame.rawSettings, List.length_cons, ih]

/-- A payload that is read whole belongs to the kind of its header. -/
theorem payloadOf_kind (kind : Kind) (content : Octets) (length : Nat) (flags : Octet)
    (streamId : StreamId) :
    (⟨length, flags, streamId, Frame.payloadOf kind content⟩ : Frame).kind = kind := by
  cases kind <;> rfl

/-- An acknowledgement is accepted without settings alone. -/
theorem ack_length {settings : Connection} {frame : Frame} {values : Option SettingsSet}
    (payload : frame.payload = .settings values) (ack : frame.hasFlag ackFlag = true)
    (accepted : frame.IsValid settings) : frame.length = 0 := by
  rw [Frame.IsValid, Frame.validate, payload] at accepted
  by_contra nonempty
  simp only [ack, ne_eq, nonempty, not_false_eq_true, and_self, if_true] at accepted
  split at accepted
  all_goals cases accepted

/-- What `Settings.Read` leaves of an accepted frame. -/
theorem readSettings_accepted {settings : Connection} {octets rest : Octets} {frame : Frame}
    {length : Nat} {flags : Octet} {streamId : StreamId}
    (read : Frame.readSettings length flags streamId octets = .ok (frame, rest))
    (accepted : frame.IsValid settings) :
    let entries := Frame.rawSettings (length / 6) (octets.take length)
    frame.payload = .settings (some (kept entries)) ∧
      (frame.hasFlag ackFlag → entries = []) := by
  intro entries
  rw [Frame.readSettings] at read
  by_cases empty : length / 6 = 0
  · rw [if_pos empty] at read
    cases read
    have entries_nil : entries = [] := by
      rw [← List.length_eq_zero_iff, rawSettings_length, empty]
    rw [entries_nil]
    exact ⟨rfl, fun _ => rfl⟩
  · rw [if_neg empty] at read
    obtain ⟨⟨data, left⟩, taken, read⟩ := bind_eq_ok_iff.mp read
    rw [Frame.readOctets] at taken
    split at taken
    · cases taken
      simp only at read
      split at read
      · -- without known entries the frame is not accepted
        cases read
        rw [Frame.IsValid, Frame.validate] at accepted
        split_ifs at accepted
        all_goals cases accepted
      · next some_known =>
          cases read
          refine ⟨rfl, fun ack => absurd accepted ?_⟩
          have known_le : (kept entries).length ≤ length / 6 := by
            rw [(kept_perm entries).length_eq]
            exact (List.length_filterMap_le _ _).trans (rawSettings_length _ _).le
          have known_pos : 0 < (kept entries).length := List.length_pos_iff.mpr some_known
          have nonzero : length - 6 * (length / 6 - (kept entries).length) ≠ 0 := by omega
          exact fun accepted => nonzero (ack_length rfl ack accepted)
    · cases taken

/-- What `Frame.Read` leaves of an accepted settings frame. -/
theorem read_settings {settings : Connection} {octets rest : Octets} {frame : Frame}
    (read : Frame.read settings octets = .ok (frame, rest)) (kind : frame.kind = .settings)
    (accepted : frame.IsValid settings) :
    frame.payload = .settings (some (kept (wireSettings octets))) ∧
      (frame.hasFlag ackFlag → wireSettings octets = []) := by
  obtain ⟨⟨header, after⟩, taken, read⟩ := bind_eq_ok_iff.mp read
  rw [Frame.readOctets] at taken
  split at taken
  · cases taken
    obtain ⟨error, checked, read⟩ := bind_eq_ok_iff.mp read
    rw [List.take_take, Nat.min_eq_left (by decide)] at checked read
    split at read
    · next refused =>
        cases read
        rw [Frame.IsValid] at accepted
        exact absurd (Except.ok.inj (checked.symm.trans accepted)) refused
    · split at read
      · exact readSettings_accepted read accepted
      · next other =>
          obtain ⟨⟨content, left⟩, -, read⟩ := bind_eq_ok_iff.mp read
          cases read
          rw [payloadOf_kind] at kind
          exact absurd kind other
  · cases taken

/-! ## The settings that are recorded -/

/-- The frame is applied without raising, and leaves the settings that the entries leave when they
are recorded in the order of the wire. -/
def AppliedInOrder (settings : Connection) (frame : Frame) (answers : List Frame)
    (entries : List (Nat × UInt32)) : Prop :=
  ∃ after, settings.handleControlFrame frame answers = .ok after ∧
    after.settings.values = applyEntries settings.values (recognised entries)

/-- An accepted settings frame is applied in the order of the wire exactly when its known values are
`Natural` and dropping the unknown entries has kept the order. -/
theorem appliedInOrder_iff {settings : Connection} {octets rest : Octets} {frame : Frame}
    {answers : List Frame} (read : Frame.read settings octets = .ok (frame, rest))
    (kind : frame.kind = .settings) (accepted : frame.IsValid settings) :
    AppliedInOrder settings frame answers (wireSettings octets) ↔
      Connection.Convertible (recognised (wireSettings octets)) ∧
        OrderKept (wireSettings octets) := by
  obtain ⟨payload, ack⟩ := read_settings read kind accepted
  have perm := kept_perm (wireSettings octets)
  have convertible : Connection.Convertible (kept (wireSettings octets)) ↔
      Connection.Convertible (recognised (wireSettings octets)) := by
    simp only [Connection.Convertible, perm.mem_iff]
  have values : frame.values = .ok (kept (wireSettings octets)) := by
    rw [Frame.values, payload]
  rw [AppliedInOrder, Connection.handleControlFrame, if_neg (by simp [kind])]
  by_cases acknowledged : frame.hasFlag ackFlag = true
  · rw [if_neg (by simp [acknowledged]), if_pos ⟨kind, acknowledged⟩, ack acknowledged]
    exact iff_of_true ⟨_, rfl, rfl⟩ ⟨by decide, (orderKept_iff []).mpr fun _ => rfl⟩
  · rw [if_pos ⟨kind, acknowledged⟩, values, ok_bind, orderKept_iff, ← applyEntries_perm_iff perm,
      ← convertible]
    constructor
    · rintro ⟨after, done, same⟩
      obtain ⟨recorded, set, done⟩ := bind_eq_ok_iff.mp done
      cases done
      refine ⟨(Connection.set_eq_ok_iff.mp set).1, ?_⟩
      rw [← same]
      funext id
      rw [applyEntries_apply, Connection.set_values set]
    · rintro ⟨natural_values, same⟩
      obtain ⟨recorded, set⟩ := Connection.set_of_convertible natural_values settings
      refine ⟨_, by rw [set]; rfl, ?_⟩
      rw [← same]
      funext id
      rw [applyEntries_apply, Connection.set_values set]

/-- A settings frame of the connection with the given entries, on the wire. -/
def settingsOctets (entries : List (Nat × Nat)) : Octets :=
  octetsOf 3 (6 * entries.length) ++ [4, 0, 0, 0, 0, 0] ++
    entries.flatMap fun entry => octetsOf 2 entry.1 ++ octetsOf 4 entry.2

/-- An unknown entry between two known ones of different identifiers does no harm. -/
theorem appliedInOrder_unknown_entry :
    AppliedInOrder (.configured .default)
      ⟨12, 0, 0, .settings (some [⟨.initialWindowSize, 100⟩, ⟨.headerTableSize, 0⟩])⟩ []
      (wireSettings (settingsOctets [(4, 100), (9, 7), (1, 0)])) :=
  (appliedInOrder_iff
    (show Frame.read _ (settingsOctets [(4, 100), (9, 7), (1, 0)]) = .ok (_, []) by
      decide +kernel) rfl (show _ = _ by decide +kernel)).mpr
    ⟨by decide +kernel, (orderKept_iff _).mpr fun id => by cases id <;> decide +kernel⟩

/-- A header table size of 2^31 is accepted and raises, and an unknown entry in front makes the
first of two window sizes win. -/
theorem accepted_settings_not_applied :
    (∃ frame, Frame.read (.configured .default) (settingsOctets [(1, 2 ^ 31)]) = .ok (frame, []) ∧
      frame.kind = .settings ∧ frame.IsValid (.configured .default) ∧
      ¬AppliedInOrder (.configured .default) frame []
        (wireSettings (settingsOctets [(1, 2 ^ 31)]))) ∧
    (∃ frame, Frame.read (.configured .default) (settingsOctets [(9, 0), (4, 1), (4, 2)]) =
        .ok (frame, []) ∧
      frame.kind = .settings ∧ frame.IsValid (.configured .default) ∧
      ¬AppliedInOrder (.configured .default) frame []
        (wireSettings (settingsOctets [(9, 0), (4, 1), (4, 2)]))) := by
  constructor
  · refine ⟨⟨6, 0, 0, .settings (some [⟨.headerTableSize, 2 ^ 31⟩])⟩, by decide +kernel, rfl,
      show _ = _ by decide +kernel, ?_⟩
    rintro ⟨after, handled, -⟩
    have raised : (Connection.configured .default).handleControlFrame
        ⟨6, 0, 0, .settings (some [⟨.headerTableSize, 2 ^ 31⟩])⟩ [] = .error .constraintError := rfl
    rw [raised] at handled
    cases handled
  · refine ⟨⟨12, 0, 0, .settings (some [⟨.initialWindowSize, 2⟩, ⟨.initialWindowSize, 1⟩])⟩,
      by decide +kernel, rfl, show _ = _ by decide +kernel, ?_⟩
    rintro ⟨after, handled, same⟩
    have first : ((Connection.configured .default).handleControlFrame
        ⟨12, 0, 0, .settings (some [⟨.initialWindowSize, 2⟩, ⟨.initialWindowSize, 1⟩])⟩
          []).toOption.map (fun after => after.settings.values .initialWindowSize) = some 1 := by
      decide +kernel
    have last : applyEntries (Connection.configured .default).values
        (recognised (wireSettings (settingsOctets [(9, 0), (4, 1), (4, 2)])))
          .initialWindowSize = 2 := by
      decide +kernel
    rw [handled] at first
    have value : after.settings.values .initialWindowSize = 1 := Option.some.inj first
    rw [same, last] at value
    cases value

end Http2
end AdaWebServer

import AdaWebServer.Containers.HeaderLines
import AdaWebServer.Containers.HeaderValues

/-!
# Splitting a header line

`Split` and `Parse` go through the values of a header line from left to right.  Every index into the line
is checked here, and no check fails: the only exception is `Format_Error`, for a quoted value without its
closing quote.
-/

namespace AdaWebServer
namespace Containers
namespace HeaderValues

open Http2 (Octet Text naturalLast text)

/-! ## Checked indexes -/

/-- A check of the language fails. -/
def constraintError {α : Type} : Except Failure α := .error (.exception .constraintError)

/-- `Data (I)`. -/
def element (data : Text) (i : Nat) : Except Failure Octet :=
  if 0 < i ∧ i ≤ data.length then .ok (data.getD (i - 1) 0) else constraintError

/-- `Data (First .. Last)`. -/
def range (data : Text) (first last : Nat) : Except Failure Text :=
  if last < first then .ok []
  else if 0 < first ∧ last ≤ data.length then .ok (slice data first last)
  else constraintError

/-- A value of the subtype `Positive`. -/
def positive (value : Nat) : Except Failure Nat := if 0 < value then .ok value else constraintError

/-- `Fixed.Index` in `Data (First .. Data'Last)`. -/
def index (data : Text) (first : Nat) (test : Octet → Bool) : Except Failure Nat :=
  (range data first data.length).map fun _ => indexFrom data first test

/-- `Format_Error`, raised by `Next_Value`. -/
def formatError (data : Text) : Failure :=
  .formatError (text "HTTP header line format error : " ++ data)

/-! ## The next value -/

/-- The parameters that `Next_Value` sets. -/
structure Bounds where
  first : Nat
  nameFirst : Nat
  nameLast : Nat
  valueFirst : Nat
  valueLast : Nat

/-- The loop that takes delimiters off the end of a value. -/
def trimmed (data : Text) : Nat → Except Failure Nat
  | 0 => (element data 0).map fun _ => 0
  | last + 1 => do
      let octet ← element data (last + 1)
      if octet ∈ entryDelimiters then trimmed data last else return last + 1

/-- The last statement of `Next_Value`, which passes over spaces. -/
def passSpaces (data : Text) (first : Nat) : Except Failure Nat :=
  if data.length < first then return 0
  else if 0 < first then index data first fun octet => octet ∉ spaces
  else return first

/-- A quoted value follows. -/
def isQuoted (data : Text) (first : Nat) : Except Failure Bool :=
  if first < data.length then (element data first).map fun octet => octet = 34 else return false

/-- The part of `Next_Value` for a named value. -/
def namedBounds (data : Text) (first last : Nat) : Except Failure Bounds := do
  let nameFirst ← positive first
  let quoted ← isQuoted data (last + 1)
  if quoted then
    let closing ← index data (last + 2) (· = 34)
    if closing = 0 then .error (formatError data)
    else
      let following ← passSpaces data (closing + 2)
      return ⟨following, nameFirst, last - 1, last + 2, closing - 1⟩
  else
    let stop ← index data (last + 1) (· ∈ entryDelimiters)
    if stop = 0 then return ⟨0, nameFirst, last - 1, last + 1, data.length⟩
    else
      let following ← passSpaces data (stop + 1)
      return ⟨following, nameFirst, last - 1, last + 1, stop - 1⟩

/-- `Next_Value`. -/
def nextBounds (data : Text) (first : Nat) : Except Failure Bounds := do
  let last ← index data first (· ∈ valueDelimiters)
  if last = 0 then
    let valueFirst ← positive first
    return ⟨0, naturalLast, 0, valueFirst, data.length⟩
  else
    let delimiter ← element data last
    if delimiter = 61 then namedBounds data first last
    else
      let valueFirst ← positive first
      let valueLast ← trimmed data (last - 1)
      let following ← passSpaces data (last + 1)
      return ⟨following, naturalLast, 0, valueFirst, valueLast⟩

/-- `Data`: a value, which may have a name. -/
structure Data where
  name : Option Text
  value : Text
  deriving DecidableEq

/-- `Element`. -/
def dataOf (headerValue : Text) (bounds : Bounds) : Except Failure Data := do
  if bounds.nameLast = 0 then
    let value ← range headerValue bounds.valueFirst bounds.valueLast
    return ⟨none, value⟩
  else
    let name ← range headerValue bounds.nameFirst bounds.nameLast
    let value ← range headerValue bounds.valueFirst bounds.valueLast
    return ⟨some name, value⟩

/-! ## Indexes -/

variable {data : Text} {first : Nat} {test : Octet → Bool}

/-- An index finds nothing, or the first character that passes the test. -/
theorem indexFrom_cases (data : Text) (first : Nat) (test : Octet → Bool) :
    (∀ octet ∈ data.drop (first - 1), test octet = false) ∨
      ∃ front octet back, data.drop (first - 1) = front ++ octet :: back ∧
        (∀ octet ∈ front, test octet = false) ∧ test octet = true := by
  induction data.drop (first - 1) with
  | nil => exact .inl nofun
  | cons octet rest ih =>
      cases hit : test octet with
      | true => exact .inr ⟨[], octet, rest, rfl, nofun, hit⟩
      | false =>
          obtain misses | ⟨front, found, back, rfl, misses, found_hit⟩ := ih
          · exact .inl (List.forall_mem_cons.mpr ⟨hit, misses⟩)
          · exact .inr ⟨octet :: front, found, back, rfl, List.forall_mem_cons.mpr ⟨hit, misses⟩,
              found_hit⟩

theorem indexFrom_zero (misses : ∀ octet ∈ data.drop (first - 1), test octet = false) :
    indexFrom data first test = 0 := by
  rw [indexFrom, List.findIdx?_eq_none_iff.mpr misses]

theorem indexFrom_eq {front back : Text} {octet : Octet}
    (drop_eq : data.drop (first - 1) = front ++ octet :: back)
    (misses : ∀ octet ∈ front, test octet = false) (hit : test octet = true) :
    indexFrom data first test = first + front.length := by
  have found : (front ++ octet :: back).findIdx? test = some front.length := by
    rw [List.findIdx?_append, List.findIdx?_eq_none_iff.mpr misses, List.findIdx?_cons, if_pos hit]
    simp
  rw [indexFrom, drop_eq, found]

/-- What stands at the index that is found. -/
theorem at_index {front back : Text} {octet : Octet} (positive : 0 < first)
    (drop_eq : data.drop (first - 1) = front ++ octet :: back) :
    first + front.length ≤ data.length ∧ data[first + front.length - 1]? = some octet := by
  have length_eq := congrArg List.length drop_eq
  have found : (data.drop (first - 1))[front.length]? = some octet := by
    rw [drop_eq, List.getElem?_append_right (Nat.le_refl _), Nat.sub_self]
    rfl
  rw [List.length_drop, List.length_append, List.length_cons] at length_eq
  rw [List.getElem?_drop, (by omega : first - 1 + front.length = first + front.length - 1)] at found
  exact ⟨by omega, found⟩

theorem range_eq {last : Nat} (positive : 0 < first) (within : last ≤ data.length) :
    range data first last = .ok (slice data first last) := by
  rw [range]
  split_ifs with null inside
  · rw [slice, List.drop_eq_nil_of_le]
    rw [List.length_take]
    omega
  · rfl
  · exact absurd ⟨positive, within⟩ inside

theorem index_eq (positive : 0 < first) : index data first test = .ok (indexFrom data first test) := by
  rw [index, range_eq positive (Nat.le_refl _)]
  rfl

theorem element_eq {i : Nat} {octet : Octet} (found : data[i - 1]? = some octet) (positive : 0 < i) :
    element data i = .ok octet := by
  obtain ⟨inside, rfl⟩ := List.getElem?_eq_some_iff.mp found
  rw [element, if_pos ⟨positive, by omega⟩, List.getD_eq_getElem?_getD, found, Option.getD_some]

theorem positive_eq (nonzero : 0 < first) : positive first = .ok first := if_pos nonzero

theorem passSpaces_eq (positive : 0 < first) : passSpaces data first = .ok (skipSpaces data first) := by
  rw [passSpaces, skipSpaces, if_pos positive, if_pos positive, index_eq positive]
  split_ifs <;> rfl

theorem isQuoted_eq {first : Nat} (positive : 0 < first) :
    isQuoted data first = .ok (decide (first < data.length ∧ data[first - 1]? = some 34)) := by
  rw [isQuoted]
  by_cases inside : first < data.length
  · have found : data[first - 1]? = some data[first - 1] := List.getElem?_eq_getElem (by omega)
    rw [if_pos inside, element_eq found positive, found]
    simp [Except.map, inside]
  · rw [if_neg inside]
    simp only [inside, false_and, decide_false]
    rfl

/-- A character that is no delimiter stops the loop. -/
theorem trimmed_eq {last : Nat} {octet : Octet} (found : data[last - 1]? = some octet)
    (positive : 0 < last) (no_delimiter : octet ∉ entryDelimiters) : trimmed data last = .ok last := by
  obtain ⟨last, rfl⟩ := Nat.exists_eq_succ_of_ne_zero (Nat.ne_of_gt positive)
  rw [trimmed, element_eq found positive]
  exact if_neg no_delimiter

/-- A character on the left that is no delimiter keeps the loop within the line. -/
theorem trimmed_le {last start : Nat} {octet : Octet} (found : data[start - 1]? = some octet)
    (positive : 0 < start) (no_delimiter : octet ∉ entryDelimiters) (behind : start ≤ last)
    (within : last ≤ data.length) : ∃ result, trimmed data last = .ok result ∧ result ≤ last := by
  induction last with
  | zero => omega
  | succ last ih =>
      have there : data[last + 1 - 1]? = some data[last] := List.getElem?_eq_getElem (by omega)
      rw [trimmed, element_eq there (Nat.succ_pos last), Http2.ok_bind]
      split_ifs with delimiter
      · have other : start ≠ last + 1 := by
          rintro rfl
          rw [found] at there
          cases there
          exact no_delimiter delimiter
        obtain ⟨result, result_eq, result_le⟩ := ih (by omega) (by omega)
        exact ⟨result, result_eq, Nat.le_succ_of_le result_le⟩
      · exact ⟨last + 1, rfl, Nat.le_refl _⟩

/-! ## No check fails -/

/-- A character at the index or in front of it is no delimiter. -/
def Anchored (data : Text) (first : Nat) : Prop :=
  ∃ start octet, 0 < start ∧ start ≤ first ∧ data[start - 1]? = some octet ∧ octet ∉ entryDelimiters

theorem Anchored.positive (anchored : Anchored data first) : 0 < first := by
  obtain ⟨start, -, positive, le, -⟩ := anchored
  exact Nat.lt_of_lt_of_le positive le

theorem Anchored.mono {later : Nat} (anchored : Anchored data first) (le : first ≤ later) :
    Anchored data later := by
  obtain ⟨start, octet, positive, start_le, found, no_delimiter⟩ := anchored
  exact ⟨start, octet, positive, Nat.le_trans start_le le, found, no_delimiter⟩

theorem dataOf_eq {bounds : Bounds} {value : Text} (positive : 0 < bounds.nameFirst)
    (within : bounds.nameLast ≤ data.length)
    (value_eq : range data bounds.valueFirst bounds.valueLast = .ok value) :
    dataOf data bounds =
      .ok ⟨if bounds.nameLast = 0 then none else some (slice data bounds.nameFirst bounds.nameLast),
        value⟩ := by
  rw [dataOf, value_eq, range_eq positive within]
  split_ifs <;> rfl

/-- `Next_Value` sets its parameters to what `next` says, with indexes inside the line. -/
def Sets (data : Text) (first : Nat) (next : NextValue) : Prop :=
  ∃ bounds, nextBounds data first = .ok bounds ∧ bounds.first = next.first ∧
    dataOf data bounds = .ok ⟨next.name, next.value⟩

theorem indexFrom_le (positive : 0 < first) : indexFrom data first test ≤ data.length := by
  obtain misses | ⟨front, octet, back, drop_eq, misses, hit⟩ := indexFrom_cases data first test
  · rw [indexFrom_zero misses]
    exact Nat.zero_le _
  · rw [indexFrom_eq drop_eq misses hit]
    exact (at_index positive drop_eq).1

/-- The loop cuts nothing off but what is in front of the value. -/
theorem trimmed_spec (anchored : Anchored data first) {front back : Text} {octet : Octet}
    (drop_eq : data.drop (first - 1) = front ++ octet :: back)
    (misses : ∀ octet ∈ front, decide (octet ∈ valueDelimiters) = false)
    (delimiter : octet ∈ entryDelimiters) :
    ∃ valueLast, trimmed data (first + front.length - 1) = .ok valueLast ∧
      range data first valueLast = .ok (slice data first (first + front.length - 1)) := by
  have positive := anchored.positive
  obtain ⟨within, found⟩ := at_index positive drop_eq
  have whole := range_eq positive (Nat.le_trans (Nat.sub_le _ 1) within)
  obtain rfl | ⟨value, last, rfl⟩ := front.eq_nil_or_concat
  · obtain ⟨start, anchor, start_positive, start_le, anchored_at, no_delimiter⟩ := anchored
    rw [List.length_nil, Nat.add_zero] at within found whole ⊢
    have other : start ≠ first := by
      rintro rfl
      rw [found] at anchored_at
      cases anchored_at
      exact no_delimiter delimiter
    obtain ⟨valueLast, trimmed_eq, le⟩ :=
      trimmed_le anchored_at start_positive no_delimiter (by omega : start ≤ first - 1) (by omega)
    refine ⟨valueLast, trimmed_eq, ?_⟩
    rw [← whole, range, range, if_pos (by omega), if_pos (by omega)]
  · have outside : last ∉ entryDelimiters := fun inside =>
      (decide_eq_false_iff_not.mp (misses last (by simp))) (List.mem_append_left _ inside)
    have last_eq : data.drop (first - 1) = value ++ last :: octet :: back := by
      rw [drop_eq, List.concat_append]
    obtain ⟨-, last_found⟩ := at_index positive last_eq
    rw [List.length_concat] at whole ⊢
    exact ⟨_, trimmed_eq last_found (by omega) outside, whole⟩

/-- A named value. -/
theorem namedBounds_spec {last : Nat} (positive : 0 < first) (le : first ≤ last)
    (within : last ≤ data.length) (found : data[last - 1]? = some 61)
    (last_eq : indexFrom data first (· ∈ valueDelimiters) = last) :
    match nextValue data first with
    | none => namedBounds data first last = .error (formatError data)
    | some next => ∃ bounds, namedBounds data first last = .ok bounds ∧ bounds.first = next.first ∧
        dataOf data bounds = .ok ⟨next.name, next.value⟩ := by
  have name_within := Nat.le_trans (Nat.sub_le last 1) within
  have name_eq : (if last = 1 then none else some (slice data first (last - 1))) =
      if last - 1 = 0 then none else some (slice data first (last - 1)) := by
    by_cases front : last = 1
    · rw [if_pos front, if_pos (by omega)]
    · rw [if_neg front, if_neg (by omega)]
  rw [nextValue, namedBounds, last_eq, positive_eq positive, isQuoted_eq (Nat.succ_pos last),
    index_eq (Nat.succ_pos last), index_eq (Nat.succ_pos (last + 1))]
  dsimp only
  rw [if_neg (by omega), if_pos found]
  simp only [Http2.ok_bind, decide_eq_true_eq, name_eq]
  by_cases quoted : last + 1 < data.length ∧ data[last + 1 - 1]? = some 34
  · rw [if_pos quoted, if_pos quoted]
    have closing_le := @indexFrom_le data (last + 2) (fun octet => decide (octet = 34)) (by omega)
    by_cases missing : indexFrom data (last + 2) (fun octet => decide (octet = 34)) = 0
    · rw [if_pos missing, if_pos missing]
    · rw [if_neg missing, if_neg missing, passSpaces_eq (Nat.succ_pos _)]
      exact ⟨_, rfl, rfl, dataOf_eq positive name_within
        (range_eq (Nat.succ_pos _) (Nat.le_trans (Nat.sub_le _ 1) closing_le))⟩
  · rw [if_neg quoted, if_neg quoted]
    have stop_le := @indexFrom_le data (last + 1) (· ∈ entryDelimiters) (Nat.succ_pos last)
    by_cases missing : indexFrom data (last + 1) (fun octet => decide (octet ∈ entryDelimiters)) = 0
    · rw [if_pos missing, if_pos missing]
      exact ⟨_, rfl, rfl, dataOf_eq positive name_within
        (range_eq (Nat.succ_pos _) (Nat.le_refl _))⟩
    · rw [if_neg missing, if_neg missing, passSpaces_eq (Nat.succ_pos _)]
      exact ⟨_, rfl, rfl, dataOf_eq positive name_within
        (range_eq (Nat.succ_pos _) (Nat.le_trans (Nat.sub_le _ 1) stop_le))⟩

/-- `Next_Value` raises `Format_Error` or returns. -/
theorem nextBounds_spec (anchored : Anchored data first) :
    match nextValue data first with
    | none => nextBounds data first = .error (formatError data)
    | some next => Sets data first next := by
  have first_positive := anchored.positive
  obtain misses | ⟨front, octet, back, drop_eq, misses, hit⟩ :=
    indexFrom_cases data first (· ∈ valueDelimiters)
  · have last_eq := indexFrom_zero misses
    have value_eq := range_eq first_positive (Nat.le_refl data.length)
    rw [nextValue]
    dsimp only
    rw [if_pos last_eq]
    refine ⟨⟨0, naturalLast, 0, first, data.length⟩, ?_, rfl, ?_⟩
    · rw [nextBounds, index_eq first_positive, Http2.ok_bind, if_pos last_eq,
        positive_eq first_positive]
      rfl
    · exact dataOf_eq (Nat.succ_pos _) (Nat.zero_le _) value_eq
  · have last_eq := indexFrom_eq drop_eq misses hit
    obtain ⟨within, found⟩ := at_index first_positive drop_eq
    have next_eq : nextBounds data first = if octet = 61
        then namedBounds data first (first + front.length)
        else do
          let valueLast ← trimmed data (first + front.length - 1)
          return ⟨skipSpaces data (first + front.length + 1), naturalLast, 0, first, valueLast⟩ := by
      rw [nextBounds, index_eq first_positive, Http2.ok_bind, last_eq, if_neg (by omega),
        element_eq found (by omega), Http2.ok_bind, positive_eq first_positive, Http2.ok_bind,
        passSpaces_eq (Nat.succ_pos _)]
      rfl
    simp only [Sets, next_eq]
    by_cases named : octet = 61
    · subst named
      rw [if_pos rfl]
      exact namedBounds_spec first_positive (Nat.le_add_right _ _) within found last_eq
    · have same_delimiter : data[first + front.length - 1]? ≠ some 61 := by
        rw [found]
        exact fun same => named (Option.some.inj same)
      have delimiter : octet ∈ entryDelimiters := by
        have either := List.mem_append.mp (of_decide_eq_true hit)
        exact either.resolve_right fun same => named (List.mem_singleton.mp same)
      obtain ⟨valueLast, trimmed_eq, value_eq⟩ := trimmed_spec anchored drop_eq misses delimiter
      rw [if_neg named, nextValue, last_eq]
      dsimp only
      rw [if_neg (by omega), if_neg same_delimiter]
      refine ⟨_, by rw [trimmed_eq]; rfl, rfl, ?_⟩
      exact dataOf_eq (Nat.succ_pos _) (Nat.zero_le _) value_eq

/-! ## Progress -/

theorem skipSpaces_cases (positive : 0 < first) :
    skipSpaces data first = 0 ∨
      first ≤ skipSpaces data first ∧ skipSpaces data first ≤ data.length := by
  rw [skipSpaces, if_pos positive]
  split_ifs with beyond
  · exact .inl rfl
  · obtain misses | ⟨front, octet, back, drop_eq, misses, hit⟩ :=
      indexFrom_cases data first fun octet => octet ∉ spaces
    · exact .inl (indexFrom_zero misses)
    · rw [indexFrom_eq drop_eq misses hit]
      exact .inr ⟨Nat.le_add_right _ _, (at_index positive drop_eq).1⟩

/-- The index of what follows is behind the first one and inside the line, or 0. -/
def MovesOn (data : Text) (first next : Nat) : Prop := next = 0 ∨ first < next ∧ next ≤ data.length

theorem movesOn_skipSpaces {later : Nat} (le : first < later) :
    MovesOn data first (skipSpaces data later) := by
  obtain zero | ⟨behind, within⟩ := @skipSpaces_cases data later (Nat.zero_lt_of_lt le)
  · exact .inl zero
  · exact .inr ⟨Nat.lt_of_lt_of_le le behind, within⟩

theorem indexFrom_ge (found : indexFrom data first test ≠ 0) : first ≤ indexFrom data first test := by
  obtain misses | ⟨front, octet, back, drop_eq, misses, hit⟩ := indexFrom_cases data first test
  · exact absurd (indexFrom_zero misses) found
  · rw [indexFrom_eq drop_eq misses hit]
    exact Nat.le_add_right _ _

theorem namedBounds_first {last : Nat} {bounds : Bounds} (positive : 0 < first) (le : first ≤ last)
    (bounds_eq : namedBounds data first last = .ok bounds) : MovesOn data first bounds.first := by
  rw [namedBounds, positive_eq positive, isQuoted_eq (Nat.succ_pos last),
    index_eq (Nat.succ_pos last), index_eq (Nat.succ_pos (last + 1))] at bounds_eq
  simp only [Http2.ok_bind] at bounds_eq
  split at bounds_eq
  · split at bounds_eq
    · cases bounds_eq
    · next found =>
        have behind := indexFrom_ge found
        rw [passSpaces_eq (Nat.succ_pos _)] at bounds_eq
        cases bounds_eq
        exact movesOn_skipSpaces (by omega)
  · split at bounds_eq
    · cases bounds_eq
      exact .inl rfl
    · next found =>
        have behind := indexFrom_ge found
        rw [passSpaces_eq (Nat.succ_pos _)] at bounds_eq
        cases bounds_eq
        exact movesOn_skipSpaces (by omega)

/-- `Next_Value` moves on. -/
theorem nextBounds_first {bounds : Bounds} (positive : 0 < first)
    (bounds_eq : nextBounds data first = .ok bounds) : MovesOn data first bounds.first := by
  rw [nextBounds, index_eq positive, Http2.ok_bind, positive_eq positive] at bounds_eq
  split at bounds_eq
  · cases bounds_eq
    exact .inl rfl
  · next found =>
      have behind := indexFrom_ge found
      rw [passSpaces_eq (Nat.succ_pos _)] at bounds_eq
      obtain ⟨octet, -, bounds_eq⟩ := Http2.bind_eq_ok_iff.mp bounds_eq
      split at bounds_eq
      · exact namedBounds_first positive behind bounds_eq
      · rw [Http2.ok_bind] at bounds_eq
        obtain ⟨valueLast, -, bounds_eq⟩ := Http2.bind_eq_ok_iff.mp bounds_eq
        cases bounds_eq
        exact movesOn_skipSpaces (by omega)

/-- What is left to be read of a line. -/
def left (data : Text) (first : Nat) : Nat := if first = 0 then 0 else 1 + (data.length - first)

theorem left_lt {bounds : Bounds} (nonzero : first ≠ 0)
    (bounds_eq : nextBounds data first = .ok bounds) : left data bounds.first < left data first := by
  obtain zero | ⟨behind, within⟩ := nextBounds_first (Nat.pos_of_ne_zero nonzero) bounds_eq
  · rw [left, left, if_pos zero, if_neg nonzero]
    exact Nat.lt_add_right _ Nat.one_pos
  · rw [left, left, if_neg (by omega), if_neg nonzero]
    omega

/-! ## Split and Parse -/

/-- `To_Set`. -/
def toSet (headerValue : Text) (first : Nat) : Except Failure (List Data) :=
  if first = 0 then return []
  else
    match _found : nextBounds headerValue first with
    | .error failure => .error failure
    | .ok bounds => do
        let element ← dataOf headerValue bounds
        let later ← toSet headerValue bounds.first
        return element :: later
termination_by left headerValue first
decreasing_by exact left_lt ‹_› _found

/-- The index of the first character that is no delimiter. -/
def firstIndex (headerValue : Text) : Nat :=
  indexFrom headerValue 1 fun octet => octet ∉ entryDelimiters

/-- `Split`. -/
def split (headerValue : Text) : Except Failure (List Data) :=
  toSet headerValue (firstIndex headerValue)

/-- The procedures that `Parse` is instantiated with: they may set `Quit`. -/
structure Handler (σ : Type) where
  value : Text → σ → Bool × σ
  namedValue : Text → Text → σ → Bool × σ

variable {σ : Type}

/-- The procedure for a value is called. -/
def Handler.call (handler : Handler σ) : Data → σ → Bool × σ
  | ⟨none, item⟩ => handler.value item
  | ⟨some name, value⟩ => handler.namedValue name value

/-- The loop of `Parse`. -/
def parseLoop (handler : Handler σ) (headerValue : Text) (first : Nat) (state : σ) :
    Except Failure σ :=
  if first = 0 then return state
  else
    match _found : nextBounds headerValue first with
    | .error failure => .error failure
    | .ok bounds => do
        let element ← dataOf headerValue bounds
        let (quit, state) := handler.call element state
        if quit then return state else parseLoop handler headerValue bounds.first state
termination_by left headerValue first
decreasing_by exact left_lt ‹_› _found

/-- `Parse`. -/
def parse (handler : Handler σ) (headerValue : Text) (state : σ) : Except Failure σ :=
  parseLoop handler headerValue (firstIndex headerValue) state

/-! ## Runs over a line -/

theorem sets_of_next {next : NextValue} (anchored : Anchored data first)
    (next_eq : nextValue data first = some next) : Sets data first next := by
  have spec := nextBounds_spec anchored
  rw [next_eq] at spec
  exact spec

theorem fails_of_next (anchored : Anchored data first) (next_eq : nextValue data first = none) :
    nextBounds data first = .error (formatError data) := by
  have spec := nextBounds_spec anchored
  rw [next_eq] at spec
  exact spec

/-- Induction over the values of a line. -/
theorem line_induction {motive : Nat → Prop} (ended : motive 0)
    (fails : ∀ first, Anchored data first → nextValue data first = none → motive first)
    (step : ∀ first next, Anchored data first → nextValue data first = some next →
      motive next.first → motive first) (first : Nat) (start : first = 0 ∨ Anchored data first) :
    motive first := by
  induction size : left data first using Nat.strong_induction_on generalizing first with
  | _ size ih =>
      subst size
      obtain rfl | anchored := start
      · exact ended
      · cases next_eq : nextValue data first with
        | none => exact fails first anchored next_eq
        | some next =>
            obtain ⟨bounds, bounds_eq, first_eq, -⟩ := sets_of_next anchored next_eq
            have positive := anchored.positive
            have smaller := left_lt (Nat.ne_of_gt positive) bounds_eq
            have later : next.first = 0 ∨ Anchored data next.first := by
              rw [← first_eq]
              exact (nextBounds_first positive bounds_eq).imp_right fun behind =>
                anchored.mono (Nat.le_of_lt behind.1)
            rw [first_eq] at smaller
            exact step first next anchored next_eq (ih _ smaller next.first later rfl)

theorem toSet_zero : toSet data 0 = .ok [] := by
  rw [toSet]
  rfl

theorem toSet_fails (anchored : Anchored data first) (next_eq : nextValue data first = none) :
    toSet data first = .error (formatError data) := by
  have failed := fails_of_next anchored next_eq
  rw [toSet, if_neg (Nat.ne_of_gt anchored.positive)]
  split
  · next failure found =>
      rw [failed] at found
      cases found
      rfl
  · next bounds found =>
      rw [failed] at found
      cases found

theorem toSet_step {next : NextValue} (anchored : Anchored data first)
    (next_eq : nextValue data first = some next) :
    toSet data first = (toSet data next.first).map (⟨next.name, next.value⟩ :: ·) := by
  obtain ⟨bounds, bounds_eq, first_eq, data_eq⟩ := sets_of_next anchored next_eq
  rw [toSet, if_neg (Nat.ne_of_gt anchored.positive)]
  split
  · next failure found =>
      rw [bounds_eq] at found
      cases found
  · next bounds' found =>
      rw [bounds_eq] at found
      cases found
      rw [data_eq, ← first_eq]
      cases toSet data bounds.first <;> rfl

variable {handler : Handler σ}

theorem parseLoop_zero (state : σ) : parseLoop handler data 0 state = .ok state := by
  rw [parseLoop]
  rfl

theorem parseLoop_fails (anchored : Anchored data first) (next_eq : nextValue data first = none)
    (state : σ) : parseLoop handler data first state = .error (formatError data) := by
  have failed := fails_of_next anchored next_eq
  rw [parseLoop, if_neg (Nat.ne_of_gt anchored.positive)]
  split
  · next failure found =>
      rw [failed] at found
      cases found
      rfl
  · next bounds found =>
      rw [failed] at found
      cases found

theorem parseLoop_step {next : NextValue} (anchored : Anchored data first)
    (next_eq : nextValue data first = some next) (state : σ) :
    parseLoop handler data first state =
      if (handler.call ⟨next.name, next.value⟩ state).1
        then .ok (handler.call ⟨next.name, next.value⟩ state).2
        else parseLoop handler data next.first (handler.call ⟨next.name, next.value⟩ state).2 := by
  obtain ⟨bounds, bounds_eq, first_eq, data_eq⟩ := sets_of_next anchored next_eq
  rw [parseLoop, if_neg (Nat.ne_of_gt anchored.positive)]
  split
  · next failure found =>
      rw [bounds_eq] at found
      cases found
  · next bounds' found =>
      rw [bounds_eq] at found
      cases found
      rw [data_eq, ← first_eq]
      rfl

theorem start_firstIndex (headerValue : Text) :
    firstIndex headerValue = 0 ∨ Anchored headerValue (firstIndex headerValue) := by
  obtain misses | ⟨front, octet, back, drop_eq, misses, hit⟩ :=
    indexFrom_cases headerValue 1 fun octet => octet ∉ entryDelimiters
  · exact .inl (indexFrom_zero misses)
  · have index_eq := indexFrom_eq drop_eq misses hit
    obtain ⟨-, found⟩ := at_index Nat.one_pos drop_eq
    rw [firstIndex, index_eq]
    exact .inr ⟨_, octet, by omega, Nat.le_refl _, found, of_decide_eq_true hit⟩

/-- Nothing but `Format_Error` is raised. -/
def OnlyFormatError {α : Type} (data : Text) (result : Except Failure α) : Prop :=
  ∀ failure, result = .error failure → failure = formatError data

/-- `Split` and `Parse` raise nothing but `Format_Error`, on every string. -/
theorem onlyFormatError_split (headerValue : Text) :
    OnlyFormatError headerValue (split headerValue) := by
  rw [split]
  refine @line_induction _ (fun first => OnlyFormatError headerValue (toSet headerValue first))
    ?_ ?_ ?_ _ (start_firstIndex headerValue)
  · rw [toSet_zero]
    nofun
  · intro first anchored next_eq
    rw [toSet_fails anchored next_eq]
    rintro failure ⟨⟩
    rfl
  · intro first next anchored next_eq ih failure failed
    rw [toSet_step anchored next_eq] at failed
    cases later : toSet headerValue next.first with
    | ok elements =>
        rw [later] at failed
        cases failed
    | error other =>
        rw [later] at failed
        cases failed
        exact ih _ later

theorem onlyFormatError_parse (handler : Handler σ) (headerValue : Text) (state : σ) :
    OnlyFormatError headerValue (parse handler headerValue state) := by
  rw [parse]
  refine @line_induction _ (fun first =>
    ∀ state, OnlyFormatError headerValue (parseLoop handler headerValue first state))
    ?_ ?_ ?_ _ (start_firstIndex headerValue) state
  · intro state
    rw [parseLoop_zero]
    nofun
  · intro first anchored next_eq state
    rw [parseLoop_fails anchored next_eq]
    rintro failure ⟨⟩
    rfl
  · intro first next anchored next_eq ih state
    rw [parseLoop_step anchored next_eq]
    split_ifs
    · nofun
    · exact ih _

/-- The procedures are called for the values in order, until one sets `Quit`. -/
def Handler.deliver (handler : Handler σ) : List Data → σ → σ
  | [], state => state
  | element :: later, state =>
      if (handler.call element state).1 then (handler.call element state).2
      else handler.deliver later (handler.call element state).2

/-- `Parse` delivers what `Split` returns. -/
theorem parse_of_split {headerValue : Text} {elements : List Data}
    (split_eq : split headerValue = .ok elements) (handler : Handler σ) (state : σ) :
    parse handler headerValue state = .ok (handler.deliver elements state) := by
  rw [split] at split_eq
  rw [parse]
  refine @line_induction _ (fun first => ∀ elements,
    toSet headerValue first = .ok elements → ∀ state,
      parseLoop handler headerValue first state = .ok (handler.deliver elements state))
    ?_ ?_ ?_ _ (start_firstIndex headerValue) elements split_eq state
  · intro elements ended state
    rw [toSet_zero] at ended
    cases ended
    rw [parseLoop_zero]
    rfl
  · intro first anchored next_eq elements failed
    rw [toSet_fails anchored next_eq] at failed
    cases failed
  · intro first next anchored next_eq ih elements found state
    rw [toSet_step anchored next_eq] at found
    cases later : toSet headerValue next.first with
    | error failure =>
        rw [later] at found
        cases found
    | ok rest =>
        rw [later] at found
        cases found
        rw [parseLoop_step anchored next_eq, ih rest later]
        rw [Handler.deliver]
        split_ifs <;> rfl

end HeaderValues
end Containers
end AdaWebServer

import Mathlib.Data.List.Basic
import Mathlib.Data.List.Infix
import Mathlib.Data.List.TakeDrop
import Mathlib.Data.Nat.Find

/-!
# Matching without a failure function

A pattern is looked for by counting how many of its items match.  At an item that does not continue
the match the count starts again, at that item.  This finds every occurrence exactly when the items
of the pattern behind a border of one of its prefixes are those behind the prefix: otherwise a
shorter match is given up with the longer one.
-/

namespace AdaWebServer
namespace NaiveMatch

variable {α : Type*} {pattern seen : List α} {matched border : Nat} {item : α}

/-- How many items of the pattern match after one more item. -/
def step [DecidableEq α] (pattern : List α) (matched : Nat) (item : α) : Nat :=
  if pattern[matched]? = some item then matched + 1
  else if matched = 0 then 0
  else if pattern[0]? = some item then 1
  else 0

/-- The pattern goes on behind a border of a prefix as behind the prefix. -/
def Restartable (pattern : List α) : Prop :=
  ∀ matched < pattern.length, ∀ border < matched, 1 ≤ border →
    pattern.take border <:+ pattern.take matched → pattern[border]? = pattern[matched]?

instance [DecidableEq α] (pattern : List α) : Decidable (Restartable pattern) :=
  inferInstanceAs (Decidable (∀ matched < pattern.length, ∀ border < matched, 1 ≤ border →
    pattern.take border <:+ pattern.take matched → pattern[border]? = pattern[matched]?))

/-- The shortest list of items that ends with the pattern. -/
structure EndsFirst (pattern front : List α) : Prop where
  suffix : pattern <:+ front
  first : ∀ count < front.length, ¬ pattern <:+ front.take count

/-- The longest prefix of the pattern that the items seen so far end with. -/
structure Longest (pattern : List α) (matched : Nat) (seen : List α) : Prop where
  below : matched < pattern.length
  suffix : pattern.take matched <:+ seen
  longest : ∀ count ≤ pattern.length, pattern.take count <:+ seen → count ≤ matched

theorem longest_nil (nonempty : pattern ≠ []) : Longest pattern 0 [] where
  below := List.length_pos_iff.mpr nonempty
  suffix := List.nil_suffix
  longest := by
    intro count count_le suffix
    have taken := List.suffix_nil.mp suffix
    rcases List.take_eq_nil_iff.mp taken with rfl | empty
    · exact le_rfl
    · exact absurd empty nonempty

/-- A prefix of the pattern ends with an item when the shorter prefix ends before it. -/
theorem take_succ_suffix_iff (within : matched < pattern.length) :
    pattern.take (matched + 1) <:+ seen ++ [item] ↔
      pattern.take matched <:+ seen ∧ pattern[matched]? = some item := by
  rw [List.take_add_one, List.getElem?_eq_getElem within, Option.toList_some,
    List.suffix_concat_iff]
  constructor
  · rintro (empty | ⟨front, same, suffix⟩)
    · exact absurd (List.append_eq_nil_iff.mp empty).2 (List.cons_ne_nil _ _)
    · obtain ⟨rfl, last⟩ := List.append_inj' same rfl
      exact ⟨suffix, congrArg some (List.singleton_inj.mp last)⟩
  · rintro ⟨suffix, last⟩
    exact .inr ⟨pattern.take matched, by rw [Option.some.inj last], suffix⟩

/-- What matches after one more item is a prefix of the pattern. -/
theorem step_sound [DecidableEq α] (within : matched < pattern.length)
    (suffix : pattern.take matched <:+ seen) (item : α) :
    step pattern matched item ≤ pattern.length ∧
      pattern.take (step pattern matched item) <:+ seen ++ [item] := by
  unfold step
  split_ifs with continues start restarts
  · exact ⟨within, (take_succ_suffix_iff within).mpr ⟨suffix, continues⟩⟩
  · exact ⟨Nat.zero_le _, by simp⟩
  · exact ⟨by omega, (take_succ_suffix_iff (by omega)).mpr ⟨by simp, restarts⟩⟩
  · exact ⟨Nat.zero_le _, by simp⟩

/-- Where the match of a restartable pattern ends, no shorter match goes on but an empty one. -/
theorem Longest.border_eq_zero (restartable : Restartable pattern)
    (longest : Longest pattern matched seen) (mismatch : pattern[matched]? ≠ some item)
    (within : border < pattern.length) (suffix : pattern.take border <:+ seen)
    (found : pattern[border]? = some item) : border = 0 ∧ 0 < matched := by
  have border_le : border ≤ matched := longest.longest border within.le suffix
  have shorter : border < matched := by
    refine lt_of_le_of_ne border_le ?_
    rintro rfl
    exact mismatch found
  refine ⟨?_, by omega⟩
  by_contra some_border
  have inside : pattern.take border <:+ pattern.take matched :=
    List.suffix_of_suffix_length_le suffix longest.suffix
      (by rw [List.length_take, List.length_take]; omega)
  have same := restartable matched longest.below border shorter (by omega) inside
  exact mismatch (same ▸ found)

section Steps

variable [DecidableEq α]

/-- A count that starts again misses no shorter match of a restartable pattern. -/
theorem Longest.le_step (restartable : Restartable pattern)
    (longest : Longest pattern matched seen) {count : Nat} (count_le : count ≤ pattern.length)
    (suffix : pattern.take count <:+ seen ++ [item]) : count ≤ step pattern matched item := by
  rcases Nat.eq_zero_or_pos count with rfl | positive
  · exact Nat.zero_le _
  obtain ⟨border, rfl⟩ := Nat.exists_eq_succ_of_ne_zero positive.ne'
  obtain ⟨border_suffix, found⟩ := (take_succ_suffix_iff count_le).mp suffix
  have border_le : border ≤ matched :=
    longest.longest border (Nat.le_of_succ_le count_le) border_suffix
  unfold step
  by_cases continues : pattern[matched]? = some item
  · rw [if_pos continues]
    omega
  · obtain ⟨rfl, started⟩ :=
      longest.border_eq_zero restartable continues count_le border_suffix found
    rw [if_neg continues, if_neg started.ne', if_pos found]

/-- One more item completes the pattern, or the count is that of the longest match. -/
theorem Longest.step_cases (restartable : Restartable pattern)
    (longest : Longest pattern matched seen) (item : α) :
    step pattern matched item = pattern.length ∧ pattern <:+ seen ++ [item] ∨
      step pattern matched item ≠ pattern.length ∧ ¬ pattern <:+ seen ++ [item] ∧
        Longest pattern (step pattern matched item) (seen ++ [item]) := by
  obtain ⟨step_le, suffix⟩ := step_sound longest.below longest.suffix item
  by_cases complete : step pattern matched item = pattern.length
  · rw [complete, List.take_length] at suffix
    exact .inl ⟨complete, suffix⟩
  · refine .inr ⟨complete, fun found => complete ?_, lt_of_le_of_ne step_le complete, suffix,
      fun count count_le => longest.le_step restartable count_le⟩
    exact le_antisymm step_le
      (longest.le_step restartable le_rfl (by rwa [List.take_length]))

end Steps

/-! ## Missed occurrences -/

/-- A pattern that is not restartable has a prefix with a border behind which it goes on with an
item that it does not have behind the prefix, and no longer border has this item behind it. -/
theorem exists_border (missed : ¬ Restartable pattern) :
    ∃ matched border, matched < pattern.length ∧ border < matched ∧ 1 ≤ border ∧
      pattern.take border <:+ pattern.take matched ∧ pattern[border]? ≠ pattern[matched]? ∧
      ∀ longer, border < longer → longer < matched →
        pattern.take longer <:+ pattern.take matched → pattern[longer]? ≠ pattern[border]? := by
  unfold Restartable at missed
  push Not at missed
  obtain ⟨matched, within, border, shorter, some_border, suffix, different⟩ := missed
  classical
  -- the longest border with this item behind it
  let Border (count : Nat) : Prop := count < matched ∧ pattern.take count <:+ pattern.take matched ∧
    pattern[count]? = pattern[border]?
  have border_is : Border border := ⟨shorter, suffix, rfl⟩
  obtain ⟨longest_lt, longest_suffix, same⟩ : Border (Nat.findGreatest Border matched) :=
    Nat.findGreatest_spec shorter.le border_is
  have border_le : border ≤ Nat.findGreatest Border matched :=
    Nat.le_findGreatest shorter.le border_is
  refine ⟨matched, _, within, longest_lt, some_border.trans border_le, longest_suffix,
    fun other => different (same.symm.trans other), ?_⟩
  intro longer longer_gt longer_lt longer_suffix other
  exact Nat.findGreatest_is_greatest longer_gt longer_lt.le
    ⟨longer_lt, longer_suffix, other.trans same⟩

/-- Items whose only occurrence of a pattern is at their end, behind a longer match. -/
def missedFront (pattern : List α) (matched border : Nat) : List α :=
  pattern.take matched ++ pattern.drop border

theorem endsFirst_missedFront (within : matched < pattern.length) (shorter : border < matched)
    (suffix : pattern.take border <:+ pattern.take matched)
    (different : pattern[border]? ≠ pattern[matched]?)
    (longest : ∀ longer, border < longer → longer < matched →
      pattern.take longer <:+ pattern.take matched → pattern[longer]? ≠ pattern[border]?) :
    EndsFirst pattern (missedFront pattern matched border) where
  suffix := by
    obtain ⟨front, front_eq⟩ := suffix
    refine ⟨front, ?_⟩
    rw [missedFront, ← front_eq, List.append_assoc, List.take_append_drop]
  first := by
    rintro count count_lt ⟨front, front_eq⟩
    have border_lt : border < pattern.length := shorter.trans within
    have total : (missedFront pattern matched border).length =
        matched + (pattern.length - border) := by
      rw [missedFront, List.length_append, List.length_take, List.length_drop]
      omega
    have lengths := congrArg List.length front_eq
    rw [List.length_append, List.length_take] at lengths
    -- the pattern starts inside the first match and goes on behind it
    have front_lt : front.length < matched - border := by omega
    have overlap : (missedFront pattern matched border).take count =
        pattern.take matched ++ (pattern.drop border).take (count - matched) := by
      rw [missedFront, List.take_append, List.length_take, Nat.min_eq_left within.le,
        List.take_of_length_le (by rw [List.length_take]; omega)]
    rw [overlap] at front_eq
    have inside : pattern.take (matched - front.length) <:+ pattern.take matched := by
      refine ⟨front, ?_⟩
      have cut := congrArg (List.take matched) front_eq
      rw [List.take_append, List.take_append_of_le_length (by rw [List.length_take]; omega),
        List.take_of_length_le (by omega), List.take_take, Nat.min_self] at cut
      exact cut
    have behind : pattern[matched - front.length]? = pattern[border]? := by
      have item := congrArg (·[matched]?) front_eq
      rw [List.getElem?_append_right (by omega), List.getElem?_append_right
        (by rw [List.length_take]; omega), List.length_take, Nat.min_eq_left within.le,
        Nat.sub_self, List.getElem?_take_of_lt (by omega), List.getElem?_drop, Nat.add_zero] at item
      exact item
    rcases Nat.eq_zero_or_pos front.length with none_before | some_before
    · rw [none_before, Nat.sub_zero] at behind
      exact different behind.symm
    · exact longest _ (by omega) (by omega) inside behind

end NaiveMatch
end AdaWebServer

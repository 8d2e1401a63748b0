import Mathlib.Data.Multiset.Range
import Mathlib.Logic.Function.Basic
import Mathlib.Tactic.Common

/-!
# Arrays that are compacted by moving the last element

The elements of a partially filled array are those at the positions from one up to a count.  An
element is removed by moving the last one to its position.
-/

namespace AdaWebServer
namespace Slots

variable {α β : Type*}

/-- What the positions up to a count hold. -/
def held (array : Nat → α) (count : Nat) : Multiset α :=
  (Multiset.range count).map fun position => array (position + 1)

/-- Move the element at one position to another. -/
def moveTo (array : Nat → α) (position last : Nat) : Nat → α :=
  Function.update array position (array last)

@[simp]
theorem held_zero (array : Nat → α) : held array 0 = 0 := rfl

theorem held_succ (array : Nat → α) (count : Nat) :
    held array (count + 1) = array (count + 1) ::ₘ held array count := by
  rw [held, Multiset.range_succ, Multiset.map_cons, held]

/-- Only the positions up to the count matter. -/
theorem held_congr {first second : Nat → α} {count : Nat}
    (agree : ∀ position, 0 < position → position ≤ count → first position = second position) :
    held first count = held second count := by
  induction count with
  | zero => rfl
  | succ count ih =>
      rw [held_succ, held_succ, agree (count + 1) (Nat.succ_pos count) le_rfl,
        ih fun position positive within => agree position positive (Nat.le_succ_of_le within)]

theorem held_update_above {array : Nat → α} {count position : Nat} (above : count < position)
    (item : α) : held (Function.update array position item) count = held array count := by
  apply held_congr
  intro other _ within
  exact Function.update_of_ne (by omega) _ _

/-- An element replaces the one at its position. -/
theorem held_update {array : Nat → α} {count position : Nat} (positive : 0 < position)
    (within : position ≤ count) (item : α) :
    array position ::ₘ held (Function.update array position item) count =
      item ::ₘ held array count := by
  induction count with
  | zero => omega
  | succ count ih =>
      rw [held_succ, held_succ]
      by_cases last : position = count + 1
      · subst last
        rw [Function.update_self, held_update_above (Nat.lt_succ_self count), Multiset.cons_swap]
      · have earlier : position ≤ count := by omega
        rw [Function.update_of_ne (Ne.symm last), Multiset.cons_swap, ih earlier,
          Multiset.cons_swap]

theorem held_add (array : Nat → α) (count : Nat) (item : α) :
    held (Function.update array (count + 1) item) (count + 1) = item ::ₘ held array count := by
  rw [held_succ, Function.update_self, held_update_above (Nat.lt_succ_self count)]

/-- An element is removed by moving the last one to its position. -/
theorem held_moveTo {array : Nat → α} {count position : Nat} (positive : 0 < position)
    (within : position ≤ count) :
    array position ::ₘ held (moveTo array position count) (count - 1) = held array count := by
  obtain ⟨count, rfl⟩ : ∃ less, count = less + 1 := ⟨count - 1, by omega⟩
  rw [Nat.add_sub_cancel, moveTo, held_succ]
  by_cases last : position = count + 1
  · subst last
    rw [held_update_above (Nat.lt_succ_self count)]
  · exact held_update positive (by omega) _

theorem mem_held {array : Nat → α} {count : Nat} {item : α} :
    item ∈ held array count ↔ ∃ position, 0 < position ∧ position ≤ count ∧ array position = item := by
  rw [held, Multiset.mem_map]
  constructor
  · rintro ⟨position, among, rfl⟩
    exact ⟨position + 1, Nat.succ_pos position, Multiset.mem_range.1 among, rfl⟩
  · rintro ⟨position, positive, within, rfl⟩
    refine ⟨position - 1, Multiset.mem_range.2 (by omega), ?_⟩
    rw [Nat.sub_add_cancel positive]

/-! ## The positions after some that are skipped -/

/-- What the positions up to a count hold, but for the first ones. -/
def heldAfter (array : Nat → α) (skipped count : Nat) : Multiset α :=
  held (fun position => array (skipped + position)) (count - skipped)

@[simp]
theorem heldAfter_zero (array : Nat → α) (count : Nat) : heldAfter array 0 count = held array count := by
  rw [heldAfter, Nat.sub_zero]
  exact held_congr fun position _ _ => by rw [Nat.zero_add]

/-- The first position that is not skipped is skipped, too. -/
theorem heldAfter_skip (array : Nat → α) {skipped count : Nat} (within : skipped < count) :
    heldAfter array skipped count = array (skipped + 1) ::ₘ heldAfter array (skipped + 1) count := by
  obtain ⟨rest, rfl⟩ : ∃ rest, count = skipped + 1 + rest := ⟨count - (skipped + 1), by omega⟩
  rw [heldAfter, heldAfter, Nat.add_sub_cancel_left,
    show skipped + 1 + rest - skipped = rest + 1 by omega]
  induction rest with
  | zero => rfl
  | succ rest ih =>
      rw [held_succ, ih (by omega), held_succ, Multiset.cons_swap]
      congr 2
      exact congrArg array (by omega)

/-- The element at the first position that is not skipped is removed. -/
theorem heldAfter_moveTo (array : Nat → α) {skipped count : Nat} (within : skipped < count) :
    array (skipped + 1) ::ₘ heldAfter (moveTo array (skipped + 1) count) skipped (count - 1) =
      heldAfter array skipped count := by
  have moved := @held_moveTo _ (fun position => array (skipped + position)) (count - skipped) 1
    Nat.one_pos (by omega)
  rw [heldAfter, heldAfter, ← moved]
  congr 1
  rw [Nat.sub_right_comm]
  apply held_congr
  intro position _ _
  rw [moveTo, moveTo, Function.update_apply, Function.update_apply, Nat.add_sub_cancel' within.le]
  congr 1
  exact propext ⟨fun same => by omega, fun same => by omega⟩

/-- What is at a position that is skipped does not matter. -/
theorem heldAfter_update_skipped (array : Nat → α) (item : α) {position skipped count : Nat}
    (before : position ≤ skipped) :
    heldAfter (Function.update array position item) skipped count = heldAfter array skipped count := by
  apply held_congr
  intro other positive _
  exact Function.update_of_ne (by omega) _ _

/-- Only positions that hold nothing of a kind are skipped. -/
theorem heldAfter_filter_skip (array : Nat → α) (kind : α → Prop) [DecidablePred kind]
    {skipped passed count : Nat} (further : skipped ≤ passed) (within : passed ≤ count)
    (none : ∀ position, skipped < position → position ≤ passed → ¬kind (array position)) :
    (heldAfter array passed count).filter kind = (heldAfter array skipped count).filter kind := by
  induction passed, further using Nat.le_induction with
  | base => rfl
  | succ passed further ih =>
      rw [← ih (Nat.le_of_succ_le within) fun position above below =>
          none position above (Nat.le_succ_of_le below),
        heldAfter_skip array within,
        Multiset.filter_cons_of_neg _ (none (passed + 1) (Nat.lt_succ_of_le further) le_rfl)]

theorem held_map (array : Nat → α) (change : α → β) (count : Nat) :
    held (fun position => change (array position)) count = (held array count).map change :=
  (Multiset.map_map _ _ _).symm

end Slots
end AdaWebServer

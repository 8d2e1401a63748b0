import Mathlib.Logic.Function.Basic
import Mathlib.Tactic.Common
import Mathlib.Tactic.SplitIfs

/-!
# Ring buffers

The positions of a ring are those from one up to its capacity, and the first one follows the last one.
A ring buffer holds a number of items at the positions that follow the one that was emptied last, which
is zero at the start.
-/

namespace AdaWebServer
namespace Ring

variable {α : Type*}

/-- The position that is reached from another after a number of steps, at most one time round. -/
def ahead (capacity position steps : Nat) : Nat :=
  if position + steps ≤ capacity then position + steps else position + steps - capacity

/-- The items at the positions that follow one, so many of them. -/
def stored (buffer : Nat → α) (capacity position : Nat) : Nat → List α
  | 0 => []
  | count + 1 =>
      stored buffer capacity position count ++ [buffer (ahead capacity position (count + 1))]

variable {capacity position count : Nat}

theorem ahead_zero (within : position ≤ capacity) : ahead capacity position 0 = position :=
  if_pos within

/-- A step after some steps. -/
theorem ahead_ahead (steps : Nat) (within : position ≤ capacity) (once : steps < capacity) :
    ahead capacity (ahead capacity position steps) 1 = ahead capacity position (steps + 1) := by
  simp only [ahead]
  split_ifs <;> omega

/-- Some steps after a step. -/
theorem ahead_one_ahead (within : position ≤ capacity) (once : count < capacity) :
    ahead capacity (ahead capacity position 1) count = ahead capacity position (count + 1) := by
  simp only [ahead]
  split_ifs <;> omega

theorem ahead_le (within : position ≤ capacity) (once : count ≤ capacity) :
    ahead capacity position count ≤ capacity := by
  rw [ahead]
  split_ifs <;> omega

/-- The positions that are reached within one round differ. -/
theorem ahead_ne {steps : Nat} (positive : 0 < steps) (less : steps < count)
    (once : count ≤ capacity) : ahead capacity position steps ≠ ahead capacity position count := by
  rw [ahead, ahead]
  split_ifs <;> omega

@[simp]
theorem stored_length (buffer : Nat → α) (capacity position count : Nat) :
    (stored buffer capacity position count).length = count := by
  induction count with
  | zero => rfl
  | succ count ih => rw [stored, List.length_append, ih, List.length_singleton]

/-- What is written ahead of the stored items does not change them. -/
theorem stored_update {buffer : Nat → α} (item : α) {steps : Nat} (beyond : count < steps)
    (once : steps ≤ capacity) :
    stored (Function.update buffer (ahead capacity position steps) item) capacity position count =
      stored buffer capacity position count := by
  induction count with
  | zero => rfl
  | succ count ih =>
      rw [stored, stored, ih (Nat.lt_of_succ_lt beyond),
        Function.update_of_ne (ahead_ne (Nat.succ_pos count) beyond once)]

/-- An item is added behind the stored ones. -/
theorem stored_add (buffer : Nat → α) (item : α) (room : count < capacity) :
    stored (Function.update buffer (ahead capacity position (count + 1)) item) capacity position
        (count + 1) = stored buffer capacity position count ++ [item] := by
  rw [stored, stored_update item (Nat.lt_succ_self count) room, Function.update_self]

/-- The first of the stored items is taken. -/
theorem stored_take (buffer : Nat → α) (within : position ≤ capacity) (room : count < capacity) :
    stored buffer capacity position (count + 1) =
      buffer (ahead capacity position 1) ::
        stored buffer capacity (ahead capacity position 1) count := by
  induction count with
  | zero => rfl
  | succ count ih =>
      rw [stored, ih (Nat.lt_of_succ_lt room), stored, List.cons_append,
        ahead_one_ahead within room]

end Ring
end AdaWebServer

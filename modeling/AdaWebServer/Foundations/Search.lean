import Mathlib.Data.List.Basic
import Mathlib.Data.List.GetD
import Mathlib.Data.List.Infix

/-!
# Searching in a list

The first position at which a list occurs in another one, and the windows of a list that is followed
forever by one item.
-/

namespace AdaWebServer
namespace Search

variable {α : Type*}

/-! ## Windows of an infinite sequence -/

/-- The items from a position on. -/
def window (supply : Nat → α) (start count : Nat) : List α := (List.range' start count).map supply

@[simp]
theorem window_zero (supply : Nat → α) (start : Nat) : window supply start 0 = [] := rfl

@[simp]
theorem length_window (supply : Nat → α) (start count : Nat) :
    (window supply start count).length = count := by
  rw [window, List.length_map, List.length_range']

theorem window_succ (supply : Nat → α) (start count : Nat) :
    window supply start (count + 1) = supply start :: window supply (start + 1) count := rfl

theorem window_append (supply : Nat → α) (start count more : Nat) :
    window supply start count ++ window supply (start + count) more =
      window supply start (count + more) := by
  rw [window, window, window, ← List.map_append, List.range'_append_1]

theorem window_concat (supply : Nat → α) (start count : Nat) :
    window supply start count ++ [supply (start + count)] = window supply start (count + 1) :=
  window_append supply start count 1

theorem getElem_window (supply : Nat → α) {start count index : Nat}
    (within : index < (window supply start count).length) :
    (window supply start count)[index] = supply (start + index) := by
  simp [window]

theorem getElem?_window (supply : Nat → α) {start count index : Nat} (within : index < count) :
    (window supply start count)[index]? = some (supply (start + index)) := by
  rw [List.getElem?_eq_getElem (by rwa [length_window]), getElem_window]

/-! ## A list that is followed by one item -/

/-- The items of a list, and another one behind them. -/
def supply (items : List α) (last : α) (index : Nat) : α := items.getD index last

theorem supply_within {items : List α} (last : α) {index : Nat} (within : index < items.length) :
    supply items last index = items[index] := by
  rw [supply, List.getD_eq_getElem _ _ within]

theorem supply_beyond {items : List α} (last : α) {index : Nat} (beyond : items.length ≤ index) :
    supply items last index = last := by
  rw [supply, List.getD_eq_default _ _ beyond]

/-- A window is part of the list with as many of the other items as it needs. -/
theorem window_supply (items : List α) (last : α) {start count extra : Nat}
    (within : start + count ≤ items.length + extra) :
    window (supply items last) start count =
      ((items ++ List.replicate extra last).drop start).take count := by
  refine List.ext_getElem (by simp; omega) fun index left right => ?_
  rw [length_window] at left
  rw [getElem_window, List.getElem_take, List.getElem_drop]
  by_cases inside : start + index < items.length
  · rw [supply_within last inside, List.getElem_append_left inside]
  · rw [supply_beyond last (not_lt.1 inside), List.getElem_append_right (not_lt.1 inside),
      List.getElem_replicate]

/-- A window within the list. -/
theorem window_items (items : List α) (last : α) {start count : Nat}
    (within : start + count ≤ items.length) :
    window (supply items last) start count = (items.drop start).take count := by
  have same := @window_supply _ items last start count 0 within
  rwa [List.replicate_zero, List.append_nil] at same

/-! ## The first position -/

variable [DecidableEq α]

end Search
end AdaWebServer

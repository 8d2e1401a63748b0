import Mathlib.Tactic.Common

/-!
# Combining a list with a repeating key

Every item is combined with the key at its position.  The key is a function of the position, so
that a list can be combined in parts, each from the position where the one before it has ended.
-/

namespace AdaWebServer
namespace RepeatingKey

variable {α β : Type*}

/-- Combine the items with the key, from a position on. -/
def apply (combine : α → β → α) (key : Nat → β) : Nat → List α → List α
  | _, [] => []
  | position, item :: items =>
      combine item (key position) :: apply combine key (position + 1) items

variable {combine : α → β → α} {key : Nat → β}

@[simp]
theorem apply_length (position : Nat) (items : List α) :
    (apply combine key position items).length = items.length := by
  induction items generalizing position with
  | nil => rfl
  | cons item items ih => rw [apply, List.length_cons, ih, List.length_cons]

/-- A list is combined in parts. -/
theorem apply_append (position : Nat) (first second : List α) :
    apply combine key position (first ++ second) =
      apply combine key position first ++ apply combine key (position + first.length) second := by
  induction first generalizing position with
  | nil => rfl
  | cons item items ih =>
      rw [List.cons_append, apply, ih, apply, List.cons_append, List.length_cons,
        Nat.add_right_comm, Nat.add_assoc]

/-- Combining twice with a key that undoes itself leaves the list as it was. -/
theorem apply_apply (involutive : ∀ item part, combine (combine item part) part = item)
    (position : Nat) (items : List α) :
    apply combine key position (apply combine key position items) = items := by
  induction items generalizing position with
  | nil => rfl
  | cons item items ih => rw [apply, apply, involutive, ih]

theorem getElem?_apply (position : Nat) (items : List α) (index : Nat) :
    (apply combine key position items)[index]? =
      items[index]?.map fun item => combine item (key (position + index)) := by
  induction items generalizing position index with
  | nil => rfl
  | cons item items ih =>
      cases index with
      | zero => rfl
      | succ index =>
          rw [apply, List.getElem?_cons_succ, List.getElem?_cons_succ, ih, Nat.add_right_comm,
            Nat.add_assoc]

/-- The same items combined from two positions on are the same where the keys are. -/
theorem apply_eq_apply_iff (injective : ∀ item, Function.Injective (combine item))
    (first second : Nat) (items : List α) :
    apply combine key first items = apply combine key second items ↔
      ∀ index < items.length, key (first + index) = key (second + index) := by
  constructor
  · intro same index small
    have at_index : (apply combine key first items)[index]? =
        (apply combine key second items)[index]? := by rw [same]
    rw [getElem?_apply, getElem?_apply, List.getElem?_eq_getElem small] at at_index
    exact injective _ (Option.some.inj at_index)
  · intro same
    refine List.ext_getElem? fun index => ?_
    rw [getElem?_apply, getElem?_apply]
    by_cases small : index < items.length
    · rw [same index small]
    · rw [List.getElem?_eq_none (Nat.le_of_not_lt small)]
      rfl

/-- A key changes nothing where its parts are neutral, and only there. -/
theorem apply_eq_self_iff {unit : β} (neutral : ∀ item part, combine item part = item ↔ part = unit)
    (position : Nat) (items : List α) :
    apply combine key position items = items ↔
      ∀ index < items.length, key (position + index) = unit := by
  constructor
  · intro same index small
    have at_index : (apply combine key position items)[index]? = items[index]? := by rw [same]
    rw [getElem?_apply, List.getElem?_eq_getElem small] at at_index
    exact (neutral _ _).mp (Option.some.inj at_index)
  · intro trivial_key
    refine List.ext_getElem? fun index => ?_
    rw [getElem?_apply]
    by_cases small : index < items.length
    · rw [List.getElem?_eq_getElem small, Option.map_some,
        (neutral _ _).mpr (trivial_key index small)]
    · rw [List.getElem?_eq_none (Nat.le_of_not_lt small)]
      rfl

/-- A periodic key is the same from a position that is a whole number of periods later. -/
theorem apply_of_periodic {period : Nat}
    (periodic : ∀ position, key (position + period) = key position)
    (position : Nat) (items : List α) :
    apply combine key (position + period) items = apply combine key position items := by
  induction items generalizing position with
  | nil => rfl
  | cons item items ih => rw [apply, apply, periodic, Nat.add_right_comm, ih]

end RepeatingKey
end AdaWebServer

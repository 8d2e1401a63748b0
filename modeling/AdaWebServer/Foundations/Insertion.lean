import Mathlib.Data.List.Forall2
import Mathlib.Tactic.Common

/-!
# Insertions into a list

A list with new items between its own ones, which may be replaced by items that are the same in some
sense.  What passes over the new items reads the same from both lists.
-/

namespace AdaWebServer

variable {α : Type*} {new : α → Prop} {same : α → α → Prop} {items padded : List α}

/-- The second list is the first one with new items put in. -/
inductive Inserted (new : α → Prop) (same : α → α → Prop) : List α → List α → Prop
  | nil : Inserted new same [] []
  /-- A new item. -/
  | new {item : α} {items padded : List α} (fresh : new item) (rest : Inserted new same items padded) :
      Inserted new same items (item :: padded)
  /-- An item of the first list. -/
  | same {item kept : α} {items padded : List α} (alike : same item kept)
      (rest : Inserted new same items padded) : Inserted new same (item :: items) (kept :: padded)

namespace Inserted

theorem length_le (inserted : Inserted new same items padded) : items.length ≤ padded.length := by
  induction inserted with
  | nil => exact Nat.le_refl _
  | new _ _ ih => exact Nat.le_succ_of_le ih
  | same _ _ ih => exact Nat.succ_le_succ ih

theorem forall₂ (inserted : Inserted new same items padded) (length : padded.length = items.length) :
    List.Forall₂ same items padded := by
  induction inserted with
  | nil => exact .nil
  | new _ rest _ =>
      have shorter := rest.length_le
      rw [List.length_cons] at length
      omega
  | same alike _ ih => exact .cons alike (ih (Nat.succ.inj length))

/-- A filter that drops the new items. -/
theorem filter {keep : α → Bool} (inserted : Inserted new same items padded)
    (drops : ∀ item, new item → keep item = false)
    (agrees : ∀ item kept, same item kept → keep kept = keep item) :
    List.Forall₂ same (items.filter keep) (padded.filter keep) := by
  induction inserted with
  | nil => exact .nil
  | @new item _ _ fresh _ ih => rwa [List.filter_cons_of_neg (by simp [drops item fresh])]
  | @same item kept _ _ alike _ ih =>
      rw [List.filter_cons, List.filter_cons, agrees item kept alike]
      split
      · exact .cons alike ih
      · exact ih

/-- The lists behind the items that are passed over, with the new ones among these. -/
theorem dropWhile {skip : α → Bool} (inserted : Inserted new same items padded)
    (skips : ∀ item, new item → skip item = true)
    (agrees : ∀ item kept, same item kept → skip kept = skip item) :
    Inserted new same (items.dropWhile skip) (padded.dropWhile skip) := by
  induction inserted with
  | nil => exact .nil
  | @new item _ _ fresh _ ih => rwa [List.dropWhile_cons_of_pos (skips item fresh)]
  | @same item kept _ _ alike rest ih =>
      rw [List.dropWhile_cons, List.dropWhile_cons, agrees item kept alike]
      split
      · exact ih
      · exact .same alike rest

/-- The first items that are not passed over. -/
theorem head?_dropWhile {skip : α → Bool} (inserted : Inserted new same items padded)
    (skips : ∀ item, new item → skip item = true)
    (agrees : ∀ item kept, same item kept → skip kept = skip item) :
    Option.Rel same (items.dropWhile skip).head? (padded.dropWhile skip).head? := by
  induction inserted with
  | nil => exact .none
  | @new item _ _ fresh _ ih => rwa [List.dropWhile_cons_of_pos (skips item fresh)]
  | @same item kept _ _ alike _ ih =>
      rw [List.dropWhile_cons, List.dropWhile_cons, agrees item kept alike]
      split
      · exact ih
      · exact .some alike

/-- A search that no new item ends. -/
theorem find? {sought : α → Bool} (inserted : Inserted new same items padded)
    (misses : ∀ item, new item → sought item = false)
    (agrees : ∀ item kept, same item kept → sought kept = sought item) :
    Option.Rel same (items.find? sought) (padded.find? sought) := by
  induction inserted with
  | nil => exact .none
  | @new item _ _ fresh _ ih => rwa [List.find?_cons_of_neg (by simp [misses item fresh])]
  | @same item kept _ _ alike _ ih =>
      rw [List.find?_cons, List.find?_cons, agrees item kept alike]
      cases sought item with
      | true => exact .some alike
      | false => exact ih

theorem head? (inserted : Inserted new same items padded) :
    Option.Rel same items.head? padded.head? ∨ ∃ item, padded.head? = some item ∧ new item := by
  cases inserted with
  | nil => exact .inl .none
  | new fresh _ => exact .inr ⟨_, rfl, fresh⟩
  | same alike _ => exact .inl (.some alike)

end Inserted
end AdaWebServer

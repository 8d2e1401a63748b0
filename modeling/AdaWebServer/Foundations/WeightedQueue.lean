import Mathlib.Data.Nat.Basic
import Mathlib.Data.List.Infix

/-!
# Queues bounded by a total weight

A queue holds its oldest item first.  Trimming drops the oldest items until the total weight is
within a limit; the result is the longest recent part of the queue that fits.
-/

namespace AdaWebServer
namespace WeightedQueue

variable {α : Type*} (weight : α → Nat)

/-- Total weight of a queue. -/
def total : List α → Nat
  | [] => 0
  | item :: queue => weight item + total queue

/-- Drop the oldest items while the total weight exceeds the limit. -/
def trim (limit : Nat) : List α → List α
  | [] => []
  | item :: queue => if limit < total weight (item :: queue) then trim limit queue else item :: queue

variable {weight}

@[simp]
theorem total_nil : total weight [] = 0 := rfl

@[simp]
theorem total_cons (item : α) (queue : List α) :
    total weight (item :: queue) = weight item + total weight queue := rfl

@[simp]
theorem total_append (left right : List α) :
    total weight (left ++ right) = total weight left + total weight right := by
  induction left with
  | nil => simp
  | cons item left ih => rw [List.cons_append, total_cons, total_cons, ih, Nat.add_assoc]

theorem length_mul_le_total {least : Nat} (heavy : ∀ item, least ≤ weight item) (queue : List α) :
    least * queue.length ≤ total weight queue := by
  induction queue with
  | nil => simp
  | cons item queue ih =>
      have := heavy item
      rw [List.length_cons, Nat.mul_add, total_cons]
      omega

@[simp]
theorem trim_nil (limit : Nat) : trim weight limit [] = [] := rfl

theorem trim_of_le {limit : Nat} {queue : List α} (fits : total weight queue ≤ limit) :
    trim weight limit queue = queue := by
  cases queue with
  | nil => rfl
  | cons item queue => rw [trim, if_neg (by omega)]

theorem trim_suffix (limit : Nat) (queue : List α) : trim weight limit queue <:+ queue := by
  induction queue with
  | nil => exact List.suffix_rfl
  | cons item queue ih =>
      rw [trim]
      split
      · exact ih.trans (List.suffix_cons _ _)
      · exact List.suffix_rfl

theorem total_trim_le (limit : Nat) (queue : List α) :
    total weight (trim weight limit queue) ≤ limit := by
  induction queue with
  | nil => simp
  | cons item queue ih =>
      rw [trim]
      split
      · exact ih
      · omega

theorem suffix_trim {limit : Nat} {recent queue : List α} (suffix : recent <:+ queue)
    (fits : total weight recent ≤ limit) : recent <:+ trim weight limit queue := by
  induction queue with
  | nil => simpa using suffix
  | cons item queue ih =>
      rw [trim]
      split
      · next heavy =>
          rcases List.suffix_cons_iff.mp suffix with rfl | shorter
          · omega
          · exact ih shorter
      · exact suffix

/-- A tighter limit on a more recent queue keeps less. -/
theorem trim_suffix_trim {tight loose : Nat} (limits : tight ≤ loose) {recent queue : List α}
    (suffix : recent <:+ queue) : trim weight tight recent <:+ trim weight loose queue :=
  suffix_trim ((trim_suffix tight recent).trans suffix) ((total_trim_le tight recent).trans limits)

/-- Trimming commutes with a map that preserves weights. -/
theorem map_trim {β : Type*} (weight' : β → Nat) (f : α → β)
    (weights : ∀ item, weight' (f item) = weight item) (limit : Nat) (queue : List α) :
    (trim weight limit queue).map f = trim weight' limit (queue.map f) := by
  have totals : ∀ queue : List α, total weight' (queue.map f) = total weight queue := by
    intro queue
    induction queue with
    | nil => rfl
    | cons item queue ih => rw [List.map_cons, total_cons, total_cons, ih, weights]
  induction queue with
  | nil => rfl
  | cons item queue ih =>
      rw [List.map_cons, trim, trim, ← List.map_cons, totals]
      split
      · exact ih
      · rfl

end WeightedQueue
end AdaWebServer

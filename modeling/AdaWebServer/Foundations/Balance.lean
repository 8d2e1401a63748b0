import Mathlib.Algebra.BigOperators.Group.List.Basic
import Mathlib.Tactic.Common
import Mathlib.Tactic.Ring

/-!
# Balances

An account is a list of entries, the newest first.  Its balance is the sum of the changes since the
newest entry that starts the account anew.
-/

namespace AdaWebServer
namespace Balance

variable {Entry : Type*} {change : Entry → Int} {starts : Entry → Bool}

/-- The sum of the changes since the newest entry that starts the account. -/
def balance (change : Entry → Int) (starts : Entry → Bool) : List Entry → Int
  | [] => 0
  | entry :: entries => if starts entry then 0 else change entry + balance change starts entries

theorem balance_cons_of_starts {entry : Entry} (started : starts entry = true)
    (entries : List Entry) : balance change starts (entry :: entries) = 0 := if_pos started

theorem balance_cons {entry : Entry} (goes_on : starts entry = false) (entries : List Entry) :
    balance change starts (entry :: entries) = change entry + balance change starts entries :=
  if_neg (by simp [goes_on])

/-- Entries in front that start nothing add their changes. -/
theorem balance_append {front : List Entry} (goes_on : ∀ entry ∈ front, starts entry = false)
    (entries : List Entry) :
    balance change starts (front ++ entries) =
      (front.map change).sum + balance change starts entries := by
  induction front with
  | nil => simp
  | cons entry front ih =>
      have later := ih fun other member => goes_on other (List.mem_cons_of_mem entry member)
      rw [List.cons_append, balance_cons (goes_on entry List.mem_cons_self), later, List.map_cons,
        List.sum_cons]
      ring

/-- Entries in front that start and change nothing leave the balance as it is. -/
theorem balance_append_of_quiet {front : List Entry}
    (quiet : ∀ entry ∈ front, starts entry = false ∧ change entry = 0) (entries : List Entry) :
    balance change starts (front ++ entries) = balance change starts entries := by
  have unchanged : (front.map change).sum = 0 := by
    refine List.sum_eq_zero fun value member => ?_
    obtain ⟨entry, inside, rfl⟩ := List.mem_map.mp member
    exact (quiet entry inside).2
  rw [balance_append (fun entry member => (quiet entry member).1), unchanged, zero_add]

end Balance
end AdaWebServer

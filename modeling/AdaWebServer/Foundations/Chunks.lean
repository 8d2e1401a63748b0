import Mathlib.Algebra.GroupWithZero.Nat
import Mathlib.Data.List.Basic
import Mathlib.Order.Nat
import Mathlib.Tactic.Common

/-!
# Chunks

A source delivers its content in chunks of its own choosing.  A read takes as many chunks as it
needs; what it returns and what it leaves depend on the content only.  A loop with a buffer cuts its
input in pieces of the size of the buffer, the last of which may be shorter.
-/

namespace AdaWebServer
namespace Chunks

variable {α : Type*}

/-- Take exactly `count` items: the items and the chunks that are left. -/
def read : List (List α) → Nat → Option (List α × List (List α))
  | chunks, 0 => some ([], chunks)
  | [], _ + 1 => none
  | chunk :: chunks, count + 1 =>
      if count + 1 < chunk.length then
        some (chunk.take (count + 1), chunk.drop (count + 1) :: chunks)
      else
        (read chunks (count + 1 - chunk.length)).map fun more => (chunk ++ more.1, more.2)

theorem read_zero (chunks : List (List α)) : read chunks 0 = some ([], chunks) := by
  cases chunks <;> rfl

/-- A read takes the front of the content and leaves the back. -/
theorem exists_read_of_flatten {chunks : List (List α)} {front back : List α}
    (content : chunks.flatten = front ++ back) :
    ∃ rest, read chunks front.length = some (front, rest) ∧ rest.flatten = back := by
  induction chunks generalizing front with
  | nil =>
      obtain ⟨rfl, rfl⟩ := List.append_eq_nil_iff.mp content.symm
      exact ⟨[], rfl, rfl⟩
  | cons chunk chunks ih =>
      cases front with
      | nil => exact ⟨chunk :: chunks, rfl, content⟩
      | cons item items =>
          rw [List.flatten_cons] at content
          rw [List.length_cons, read]
          split
          next short =>
              have taken : chunk.take (items.length + 1) = item :: items := by
                have whole : (chunk ++ chunks.flatten).take (items.length + 1) =
                    chunk.take (items.length + 1) :=
                  List.take_append_of_le_length (Nat.le_of_lt short)
                rw [← whole, content, ← List.length_cons, List.take_left]
              have left : chunk.drop (items.length + 1) ++ chunks.flatten = back := by
                rw [← List.drop_append_of_le_length (Nat.le_of_lt short), content,
                  ← List.length_cons (a := item), List.drop_left]
              exact ⟨_, by rw [taken], by rw [List.flatten_cons, left]⟩
          next long =>
              obtain ⟨middle, split_front, split_rest⟩ :
                  ∃ middle, item :: items = chunk ++ middle ∧ chunks.flatten = middle ++ back := by
                rcases List.append_eq_append_iff.mp content with ⟨middle, eq, eq'⟩ | ⟨middle, eq, eq'⟩
                · exact ⟨middle, eq, eq'⟩
                · have none_left : middle = [] := by
                    have lengths := congrArg List.length eq
                    rw [List.length_append, List.length_cons] at lengths
                    exact List.length_eq_zero_iff.mp (by omega)
                  subst none_left
                  exact ⟨[], by simpa using eq.symm, by simpa using eq'.symm⟩
              have count : items.length + 1 - chunk.length = middle.length := by
                have lengths := congrArg List.length split_front
                rw [List.length_append, List.length_cons] at lengths
                omega
              obtain ⟨rest, found, left⟩ := ih split_rest
              exact ⟨rest, by rw [count, found, split_front]; rfl, left⟩

/-- What a read returns has the number of items asked for and is the front of the content. -/
theorem flatten_of_read {chunks rest : List (List α)} {count : Nat} {taken : List α}
    (found : read chunks count = some (taken, rest)) :
    taken.length = count ∧ chunks.flatten = taken ++ rest.flatten := by
  induction chunks, count using read.induct generalizing taken with
  | case1 chunks =>
      rw [read_zero] at found
      cases found
      exact ⟨rfl, rfl⟩
  | case2 count => cases found
  | case3 chunk chunks count short =>
      rw [read, if_pos short] at found
      cases found
      refine ⟨List.length_take_of_le (Nat.le_of_lt short), ?_⟩
      rw [List.flatten_cons, List.flatten_cons, ← List.append_assoc, List.take_append_drop]
  | case4 chunk chunks count long ih =>
      rw [read, if_neg long] at found
      obtain ⟨⟨more, rest'⟩, inner, eq⟩ := Option.map_eq_some_iff.mp found
      cases eq
      obtain ⟨size, content⟩ := ih inner
      refine ⟨?_, by rw [List.flatten_cons, content, List.append_assoc]⟩
      rw [List.length_append, size]
      omega

/-! ## Pieces of one size -/

/-- Cut off pieces of a size, a number of times. -/
def cut (size : Nat) : Nat → List α → List (List α)
  | 0, _ => []
  | _ + 1, [] => []
  | times + 1, item :: items =>
      (item :: items).take size :: cut size times ((item :: items).drop size)

/-- The pieces of a size. -/
def pieces (size : Nat) (items : List α) : List (List α) := cut size items.length items

@[simp]
theorem pieces_nil (size : Nat) : pieces size ([] : List α) = [] := rfl

variable {size : Nat}

/-- Further times cut off nothing. -/
theorem cut_eq_cut (size_pos : 0 < size) {times times' : Nat} {items : List α}
    (enough : items.length ≤ times) (enough' : items.length ≤ times') :
    cut size times items = cut size times' items := by
  induction times generalizing times' items with
  | zero =>
      obtain rfl := List.length_eq_zero_iff.mp (Nat.le_zero.mp enough)
      cases times' <;> rfl
  | succ times ih =>
      cases items with
      | nil => cases times' <;> rfl
      | cons item items =>
          cases times' with
          | zero => cases enough'
          | succ times' =>
              have shorter : ((item :: items).drop size).length ≤ items.length := by
                rw [List.length_drop, List.length_cons]
                omega
              rw [cut, cut, ih (shorter.trans (Nat.le_of_succ_le_succ enough))
                (shorter.trans (Nat.le_of_succ_le_succ enough'))]

theorem pieces_eq (size_pos : 0 < size) {items : List α} (items_ne : items ≠ []) :
    pieces size items = items.take size :: pieces size (items.drop size) := by
  cases items with
  | nil => exact absurd rfl items_ne
  | cons item items =>
      rw [pieces, List.length_cons, cut, pieces]
      congr 1
      apply cut_eq_cut size_pos _ le_rfl
      rw [List.length_drop, List.length_cons]
      omega

theorem flatten_pieces (size_pos : 0 < size) (items : List α) :
    (pieces size items).flatten = items := by
  induction length_eq : items.length using Nat.strong_induction_on generalizing items with
  | _ length ih =>
      by_cases empty : items = []
      · rw [empty, pieces_nil, List.flatten_nil]
      · have length_pos := List.length_pos_of_ne_nil empty
        rw [pieces_eq size_pos empty, List.flatten_cons,
          ih (items.drop size).length (by rw [List.length_drop]; omega) _ rfl,
          List.take_append_drop]

/-- A weight of the pieces by their lengths adds up to what the same recursion gives for numbers. -/
theorem sum_map_pieces (size_pos : 0 < size) {weight total : Nat → Nat} (total_zero : total 0 = 0)
    (total_eq : ∀ length, 0 < length →
      total length = weight (min size length) + total (length - size)) (items : List α) :
    ((pieces size items).map fun piece => weight piece.length).sum = total items.length := by
  induction length_eq : items.length using Nat.strong_induction_on generalizing items with
  | _ length ih =>
      by_cases empty : items = []
      · subst empty
        rw [← length_eq, List.length_nil, total_zero]
        rfl
      · have length_pos := List.length_pos_of_ne_nil empty
        rw [pieces_eq size_pos empty, List.map_cons, List.sum_cons, List.length_take,
          ih (items.drop size).length (by rw [List.length_drop]; omega) _ rfl, List.length_drop,
          length_eq, ← total_eq length (by omega)]

end Chunks
end AdaWebServer

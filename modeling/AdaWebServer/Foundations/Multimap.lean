import Mathlib.Data.List.Basic
import Mathlib.Tactic.Common

/-!
# Multimaps in insertion order

A multimap is the list of its keys with their items, in the order in which they were inserted.  The
positions of a key are counted from one.
-/

namespace AdaWebServer
namespace Multimap

variable {κ β : Type*} [DecidableEq κ]

/-- The positions of a key in a list of keys, the first of which has the given position. -/
def positionsFrom (key : κ) : Nat → List κ → List Nat
  | _, [] => []
  | start, first :: rest =>
      if first = key then start :: positionsFrom key (start + 1) rest
      else positionsFrom key (start + 1) rest

/-- The positions of a key. -/
def positions (key : κ) (keys : List κ) : List Nat := positionsFrom key 1 keys

/-- The items of a key. -/
def itemsOf (key : κ) : List (κ × β) → List β
  | [] => []
  | (first, item) :: rest => if first = key then item :: itemsOf key rest else itemsOf key rest

/-- The item of a key with the given number is replaced. -/
def replaceNth (key : κ) (item : β) : Nat → List (κ × β) → List (κ × β)
  | _, [] => []
  | number, (first, old) :: rest =>
      if first = key then
        if number = 1 then (key, item) :: rest
        else (first, old) :: replaceNth key item (number - 1) rest
      else (first, old) :: replaceNth key item number rest

/-! ## Positions -/

theorem positionsFrom_append (key : κ) (start : Nat) (keys more : List κ) :
    positionsFrom key start (keys ++ more) =
      positionsFrom key start keys ++ positionsFrom key (start + keys.length) more := by
  induction keys generalizing start with
  | nil => rfl
  | cons first rest ih =>
      have moved : start + (first :: rest).length = start + 1 + rest.length := by
        rw [List.length_cons]
        omega
      rw [List.cons_append, positionsFrom, positionsFrom, ih, moved]
      split_ifs <;> rfl

/-- A key at the end of a list. -/
theorem positions_concat (key last : κ) (keys : List κ) :
    positions key (keys ++ [last]) =
      if last = key then positions key keys ++ [keys.length + 1] else positions key keys := by
  rw [positions, positionsFrom_append, positionsFrom, positionsFrom, Nat.add_comm]
  split_ifs
  · rfl
  · rw [List.append_nil]
    rfl

/-- A position holds the key. -/
theorem mem_positionsFrom {key : κ} {start position : Nat} {keys : List κ} :
    position ∈ positionsFrom key start keys ↔
      start ≤ position ∧ keys[position - start]? = some key := by
  induction keys generalizing start with
  | nil => simp [positionsFrom]
  | cons first rest ih =>
      have later : position ∈ positionsFrom key (start + 1) rest ↔
          start + 1 ≤ position ∧ (first :: rest)[position - start]? = some key := by
        rw [ih]
        refine and_congr_right fun beyond => ?_
        have index_eq : position - start = position - (start + 1) + 1 := by omega
        rw [index_eq, List.getElem?_cons_succ]
      have here : (first :: rest)[position - start]? = some key ∧ position = start ↔
          first = key ∧ position = start := by
        refine and_congr_left fun at_start => ?_
        rw [at_start, Nat.sub_self, List.getElem?_cons_zero, Option.some.injEq]
      rw [positionsFrom]
      split_ifs with found
      · rw [List.mem_cons, later]
        constructor
        · rintro (rfl | ⟨beyond, held⟩)
          · exact ⟨Nat.le_refl _, (here.2 ⟨found, rfl⟩).1⟩
          · exact ⟨Nat.le_of_succ_le beyond, held⟩
        · rintro ⟨beyond, held⟩
          obtain at_start | further := Nat.eq_or_lt_of_le beyond
          · exact .inl at_start.symm
          · exact .inr ⟨further, held⟩
      · rw [later]
        refine ⟨fun held => ⟨Nat.le_of_succ_le held.1, held.2⟩, fun held => ⟨?_, held.2⟩⟩
        obtain at_start | further := Nat.eq_or_lt_of_le held.1
        · exact absurd (here.1 ⟨held.2, at_start.symm⟩).1 found
        · exact further

theorem mem_positions {key : κ} {position : Nat} {keys : List κ} :
    position ∈ positions key keys ↔ 1 ≤ position ∧ keys[position - 1]? = some key :=
  mem_positionsFrom

theorem positionsFrom_pairwise (key : κ) (start : Nat) (keys : List κ) :
    (positionsFrom key start keys).Pairwise (· < ·) := by
  induction keys generalizing start with
  | nil => exact .nil
  | cons first rest ih =>
      rw [positionsFrom]
      split_ifs
      · refine List.pairwise_cons.2 ⟨fun position among => ?_, ih (start + 1)⟩
        exact (mem_positionsFrom.1 among).1
      · exact ih (start + 1)

theorem positions_eq_nil_iff {key : κ} {keys : List κ} : positions key keys = [] ↔ key ∉ keys := by
  rw [List.eq_nil_iff_forall_not_mem]
  constructor
  · intro none_listed among
    obtain ⟨index, held⟩ := List.mem_iff_getElem?.1 among
    exact none_listed (index + 1) (mem_positions.2 ⟨Nat.le_add_left 1 index, held⟩)
  · intro absent position listed
    exact absent (List.mem_of_getElem? (mem_positions.1 listed).2)

/-! ## Items -/

theorem itemsOf_append (key : κ) (entries more : List (κ × β)) :
    itemsOf key (entries ++ more) = itemsOf key entries ++ itemsOf key more := by
  induction entries with
  | nil => rfl
  | cons entry rest ih =>
      rw [List.cons_append, itemsOf, itemsOf, ih]
      split_ifs <;> rfl

/-- The items of a key are those at its positions. -/
theorem map_positionsFrom (key : κ) (start : Nat) (entries : List (κ × β)) :
    (positionsFrom key start (entries.map Prod.fst)).map
        (fun position => (entries.map Prod.snd)[position - start]?) =
      (itemsOf key entries).map some := by
  induction entries generalizing start with
  | nil => rfl
  | cons entry rest ih =>
      have later : (positionsFrom key (start + 1) (rest.map Prod.fst)).map
          (fun position => (entry.2 :: rest.map Prod.snd)[position - start]?) =
            (itemsOf key rest).map some := by
        rw [← ih (start + 1)]
        refine List.map_congr_left fun position among => ?_
        have beyond := (mem_positionsFrom.1 among).1
        have index_eq : position - start = position - (start + 1) + 1 := by omega
        rw [index_eq, List.getElem?_cons_succ]
      rw [List.map_cons, List.map_cons, positionsFrom, itemsOf]
      split_ifs
      · rw [List.map_cons, List.map_cons, later, Nat.sub_self, List.getElem?_cons_zero]
      · exact later

theorem positions_length (key : κ) (entries : List (κ × β)) :
    (positions key (entries.map Prod.fst)).length = (itemsOf key entries).length := by
  have lengths := congrArg List.length (map_positionsFrom key 1 entries)
  rwa [List.length_map, List.length_map] at lengths

/-! ## Replacing -/

variable {key : κ} {item : β}

theorem replaceNth_fst (key : κ) (item : β) (number : Nat) (entries : List (κ × β)) :
    (replaceNth key item number entries).map Prod.fst = entries.map Prod.fst := by
  induction entries generalizing number with
  | nil => rfl
  | cons entry rest ih =>
      rw [replaceNth]
      split_ifs with found first
      · rw [List.map_cons, List.map_cons, found]
      · rw [List.map_cons, List.map_cons, ih]
      · rw [List.map_cons, List.map_cons, ih]

theorem replaceNth_of_lt {number : Nat} {entries : List (κ × β)}
    (beyond : (itemsOf key entries).length < number) :
    replaceNth key item number entries = entries := by
  induction entries generalizing number with
  | nil => rfl
  | cons entry rest ih =>
      rw [itemsOf] at beyond
      rw [replaceNth]
      split_ifs at beyond ⊢ with found first
      · rw [first, List.length_cons] at beyond
        omega
      · rw [List.length_cons] at beyond
        rw [ih (by omega)]
      · rw [ih beyond]

/-- The item at the position of that number is replaced. -/
theorem replaceNth_snd {start number position : Nat} {entries : List (κ × β)} (positive : 0 < number)
    (listed : (positionsFrom key start (entries.map Prod.fst))[number - 1]? = some position) :
    (replaceNth key item number entries).map Prod.snd =
      (entries.map Prod.snd).set (position - start) item := by
  induction entries generalizing start number with
  | nil => cases listed
  | cons entry rest ih =>
      have later : ∀ {number : Nat}, 0 < number →
          (positionsFrom key (start + 1) (rest.map Prod.fst))[number - 1]? = some position →
          entry.2 :: (replaceNth key item number rest).map Prod.snd =
            (entry.2 :: rest.map Prod.snd).set (position - start) item := by
        intro number positive listed
        have beyond := (mem_positionsFrom.1 (List.mem_of_getElem? listed)).1
        have index_eq : position - start = position - (start + 1) + 1 := by omega
        rw [ih positive listed, index_eq, List.set_cons_succ]
      rw [List.map_cons, positionsFrom] at listed
      rw [replaceNth, List.map_cons]
      split_ifs with found first
      · rw [if_pos found, first, Nat.sub_self, List.getElem?_cons_zero, Option.some.injEq] at listed
        rw [List.map_cons, listed, Nat.sub_self, List.set_cons_zero]
      · obtain ⟨number, rfl⟩ : ∃ less, number = less + 2 := ⟨number - 2, by omega⟩
        rw [if_pos found] at listed
        rw [List.map_cons]
        exact later (Nat.succ_pos number) listed
      · rw [if_neg found] at listed
        rw [List.map_cons]
        exact later positive listed

end Multimap
end AdaWebServer

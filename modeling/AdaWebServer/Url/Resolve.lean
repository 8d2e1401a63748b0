import AdaWebServer.Foundations.DotSegments
import AdaWebServer.Http2.Basic

/-!
# Resolution of URLs

`Remove_Dot_Segments` walks through the path by an index.  What is left behind the index is the input
buffer of RFC 3986, section 5.2.4, and the normalized path is its output buffer.
-/

namespace AdaWebServer
namespace Url

open Foundations
open Http2 (Octet Text text)

/-- The paths of an `Object`. -/
structure Object where
  /-- Original path. -/
  path : Text
  /-- Normalized path. -/
  nPath : Text

/-! ## Removing dot segments -/

/-- `Starts_With`. -/
def startsWith (s pat : Text) (start : Nat) : Bool :=
  let stop := start + pat.length - 1
  if start < s.length ∧ stop < s.length then (s.drop start).take pat.length = pat else false

/-- `Remaining`. -/
def remaining (s : Text) (start : Nat) : Text := if start < s.length then s.drop start else []

/-- `Index` of a slash, from an index on: behind the end nothing is found. -/
def indexSlash (s : Text) (start : Nat) : Option Nat := ((s.drop start).idxOf? 47).map (start + ·)

/-- `Index` of a slash, going backward. -/
def lastIndexSlash (s : Text) : Option Nat := (s.reverse.idxOf? 47).map (s.length - 1 - ·)

/-- `Go_Up`. -/
def goUp (nPath : Text) : Text :=
  match lastIndexSlash nPath with
  | none => []
  | some n => nPath.take n

/-- The variables of the loop: the path, in which characters are replaced, the index and the
normalized path. -/
structure Walk where
  path : Text
  i : Nat
  nPath : Text

namespace Walk

/-- One turn of the loop of `Remove_Dot_Segments`. -/
def turn (walk : Walk) : Walk :=
  let { path, i, nPath } := walk
  if startsWith path (text "../") i then { walk with i := i + 3 }
  else if startsWith path (text "./") i then { walk with i := i + 2 }
  else if startsWith path (text "/./") i then { walk with i := i + 2 }
  else if remaining path i = text "/." then { walk with i := i + 1, path := path.set (i + 1) 47 }
  else if startsWith path (text "/../") i then { walk with i := i + 3, nPath := goUp nPath }
  else if remaining path i = text "/.." then ⟨path.set (i + 2) 47, i + 2, goUp nPath⟩
  else if remaining path i = text ".." then { walk with i := i + 2 }
  else if remaining path i = text "." then { walk with i := i + 1 }
  else
    match indexSlash path (i + 1) with
    | some n => { walk with i := n, nPath := nPath ++ (path.take n).drop i }
    | none => { walk with i := path.length, nPath := nPath ++ path.drop i }

/-- The input buffer. -/
def input (walk : Walk) : Text := walk.path.drop walk.i

variable {walk : Walk}

theorem startsWith_iff {s pat : Text} {start : Nat} (nonempty : pat ≠ []) :
    startsWith s pat start = true ↔ pat <+: s.drop start := by
  have positive := List.length_pos_iff.mpr nonempty
  simp only [startsWith]
  constructor
  · intro starts
    split at starts
    · exact List.prefix_iff_eq_take.mpr (decide_eq_true_eq.mp starts).symm
    · cases starts
  · intro starts
    have within := starts.length_le
    rw [List.length_drop] at within
    rw [if_pos ⟨by omega, by omega⟩]
    exact decide_eq_true (List.prefix_iff_eq_take.mp starts).symm

theorem remaining_eq (inside : walk.i < walk.path.length) :
    remaining walk.path walk.i = walk.input := if_pos inside

theorem idxOf?_append_cons {front : Text} (alone : 47 ∉ front) (back : Text) :
    (front ++ 47 :: back).idxOf? 47 = some front.length := by
  induction front with
  | nil => rfl
  | cons first front ih =>
      rw [List.mem_cons, not_or] at alone
      rw [List.cons_append, List.idxOf?_cons, ih alone.2, if_neg (by simpa using Ne.symm alone.1)]
      rfl

theorem goUp_eq (nPath : Text) : goUp nPath = DotSegments.withoutLast 47 nPath := by
  obtain alone | ⟨front, last, rfl, alone⟩ := @DotSegments.last_segment _ _ 47 nPath
  · have none : nPath.reverse.idxOf? 47 = none :=
      List.idxOf?_eq_none_iff.mpr (List.mem_reverse.not.mpr alone)
    rw [DotSegments.withoutLast_of_notMem alone, goUp, lastIndexSlash, none]
    rfl
  · have found := idxOf?_append_cons (List.mem_reverse.not.mpr alone) front.reverse
    have reverse_eq : (front ++ 47 :: last).reverse = last.reverse ++ 47 :: front.reverse := by
      rw [List.reverse_append, List.reverse_cons, List.append_assoc]
      rfl
    have place : (front ++ 47 :: last).length - 1 - last.reverse.length = front.length := by
      rw [List.length_append, List.length_cons, List.length_reverse]
      omega
    rw [DotSegments.withoutLast_append_cons front alone, goUp, lastIndexSlash, reverse_eq, found,
      Option.map_some, place]
    exact List.take_left

theorem indexSlash_spec (inside : walk.i < walk.path.length) :
    match indexSlash walk.path (walk.i + 1) with
    | some n => walk.i < n ∧
        DotSegments.firstSegment 47 walk.input = (walk.path.take n).drop walk.i ∧
        DotSegments.afterFirst 47 walk.input = walk.path.drop n
    | none => DotSegments.firstSegment 47 walk.input = walk.input ∧
        DotSegments.afterFirst 47 walk.input = [] := by
  have input_eq : walk.input = walk.path[walk.i] :: walk.path.drop (walk.i + 1) :=
    List.drop_eq_getElem_cons inside
  have others : ∀ segment : Text, 47 ∉ segment → ∀ octet ∈ segment, decide (octet ≠ 47) = true := by
    rintro segment alone octet member
    rw [decide_eq_true_eq]
    rintro rfl
    exact alone member
  rw [indexSlash, DotSegments.afterFirst, List.drop_one, input_eq, DotSegments.firstSegment,
    List.tail_cons]
  by_cases separated : 47 ∈ walk.path.drop (walk.i + 1)
  · obtain ⟨segment, back, rest_eq, alone⟩ := List.eq_append_cons_of_mem separated
    have behind : walk.path.drop (walk.i + 1 + segment.length) = 47 :: back := by
      rw [← List.drop_drop, rest_eq, List.drop_left]
    have between : (walk.path.take (walk.i + 1 + segment.length)).drop walk.i =
        walk.path[walk.i] :: segment := by
      rw [List.drop_take, ← input, input_eq, rest_eq, (by omega :
        walk.i + 1 + segment.length - walk.i = segment.length + 1), List.take_succ_cons, List.take_left]
    rw [rest_eq, idxOf?_append_cons alone, Option.map_some]
    dsimp only
    rw [behind, between, List.takeWhile_append_of_pos (others _ alone),
      List.dropWhile_append_of_pos (others _ alone)]
    refine ⟨by omega, ?_, rfl⟩
    rw [List.takeWhile_cons_of_neg (by simp), List.append_nil]
  · have none : (walk.path.drop (walk.i + 1)).idxOf? 47 = none :=
      List.idxOf?_eq_none_iff.mpr separated
    rw [none, Option.map_none]
    dsimp only
    rw [List.takeWhile_eq_self_iff.mpr (others _ separated),
      List.dropWhile_eq_nil_iff.mpr (others _ separated)]
    exact ⟨rfl, rfl⟩

theorem turn_progress (inside : walk.i < walk.path.length) :
    walk.turn.path.length = walk.path.length ∧ walk.i < walk.turn.i := by
  have next := indexSlash_spec inside
  let Later (later : Walk) : Prop := later.path.length = walk.path.length ∧ walk.i < later.i
  have later {next : Walk} (length_eq : next.path.length = walk.path.length) (count : Nat)
      (moved : next.i = walk.i + (count + 1)) : Later next :=
    ⟨length_eq, moved ▸ Nat.lt_add_of_pos_right (Nat.succ_pos count)⟩
  rw [turn]
  -- one condition after another, in the order of the source
  refine iteInduction (motive := Later) (fun _ => later rfl 2 rfl) fun _ => ?_
  refine iteInduction (motive := Later) (fun _ => later rfl 1 rfl) fun _ => ?_
  refine iteInduction (motive := Later) (fun _ => later rfl 1 rfl) fun _ => ?_
  refine iteInduction (motive := Later) (fun _ => later List.length_set 0 rfl) fun _ => ?_
  refine iteInduction (motive := Later) (fun _ => later rfl 2 rfl) fun _ => ?_
  refine iteInduction (motive := Later) (fun _ => later List.length_set 1 rfl) fun _ => ?_
  refine iteInduction (motive := Later) (fun _ => later rfl 1 rfl) fun _ => ?_
  refine iteInduction (motive := Later) (fun _ => later rfl 0 rfl) fun _ => ?_
  split at next
  · exact ⟨rfl, next.1⟩
  · exact ⟨rfl, inside⟩

/-- The tail of the path behind the last character that is replaced. -/
theorem drop_set {path : Text} {i : Nat} {first second : Octet} (front : Text)
    (drop_eq : path.drop i = front ++ [first]) :
    (path.set (i + front.length) second).drop (i + front.length) = [second] := by
  have length_eq := congrArg List.length drop_eq
  rw [List.length_drop, List.length_append, List.length_singleton] at length_eq
  rw [List.drop_eq_getElem_cons (by rw [List.length_set]; omega), List.getElem_set_self,
    List.drop_eq_nil_of_le (by rw [List.length_set]; omega)]

theorem turn_simulates (inside : walk.i < walk.path.length) :
    DotSegments.turn 47 46 walk.input walk.nPath = (walk.turn.input, walk.turn.nPath) := by
  have next := indexSlash_spec inside
  have parent : startsWith walk.path (text "../") walk.i = true ↔ [46, 46, 47] <+: walk.input :=
    startsWith_iff (by decide)
  have same : startsWith walk.path (text "./") walk.i = true ↔ [46, 47] <+: walk.input :=
    startsWith_iff (by decide)
  have within : startsWith walk.path (text "/./") walk.i = true ↔ [47, 46, 47] <+: walk.input :=
    startsWith_iff (by decide)
  have within_parent : startsWith walk.path (text "/../") walk.i = true ↔
      [47, 46, 46, 47] <+: walk.input := startsWith_iff (by decide)
  have moved : ∀ count, walk.input.drop count = walk.path.drop (walk.i + count) := fun count =>
    List.drop_drop
  have last : text "/." = [47, 46] := by decide
  have last_parent : text "/.." = [47, 46, 46] := by decide
  have dots : text ".." = [46, 46] := by decide
  have dot : text "." = [46] := by decide
  let view (walk : Walk) : Text × Text := (walk.input, walk.nPath)
  change _ = view walk.turn
  rw [DotSegments.turn, turn, remaining_eq inside, last, last_parent, dots, dot]
  rw [apply_ite view]
  refine ite_congr (propext parent.symm) (fun _ => congrArg (·, walk.nPath) (moved 3)) fun _ => ?_
  rw [apply_ite view]
  refine ite_congr (propext same.symm) (fun _ => congrArg (·, walk.nPath) (moved 2)) fun _ => ?_
  rw [apply_ite view]
  refine ite_congr (propext within.symm) (fun withins => ?_) fun _ => ?_
  · obtain ⟨back, input_eq⟩ := within.mp withins
    refine congrArg (·, walk.nPath) (Eq.trans ?_ (moved 2))
    rw [← input_eq]
    rfl
  rw [apply_ite view]
  refine ite_congr rfl (fun lasts => congrArg (·, walk.nPath) (drop_set [47] lasts).symm) fun _ => ?_
  rw [apply_ite view]
  refine ite_congr (propext within_parent.symm) (fun within_parents => ?_) fun _ => ?_
  · obtain ⟨back, input_eq⟩ := within_parent.mp within_parents
    refine congrArg₂ Prod.mk (Eq.trans ?_ (moved 3)) (goUp_eq _).symm
    rw [← input_eq]
    rfl
  rw [apply_ite view]
  refine ite_congr rfl (fun last_parents => congrArg₂ Prod.mk
    (drop_set [47, 46] last_parents).symm (goUp_eq _).symm) fun _ => ?_
  by_cases twice : walk.input = [46, 46]
  · rw [if_pos (.inr twice), if_pos twice]
    refine congrArg (·, walk.nPath) (Eq.trans ?_ (moved 2))
    rw [twice]
    rfl
  · rw [if_neg (show ¬walk.input = [46, 46] from twice)]
    by_cases once : walk.input = [46]
    · rw [if_pos (.inl once), if_pos once]
      refine congrArg (·, walk.nPath) (Eq.trans ?_ (moved 1))
      rw [once]
      rfl
    · rw [if_neg (not_or.mpr ⟨once, twice⟩), if_neg once]
      split at next
      · rw [next.2.1, next.2.2]
        rfl
      · rw [next.1, next.2]
        refine congrArg (·, _) ?_
        exact (List.drop_eq_nil_of_le (Nat.le_refl _)).symm

/-- The loop of `Remove_Dot_Segments`. -/
def run (walk : Walk) : Walk := if walk.i < walk.path.length then walk.turn.run else walk
termination_by walk.path.length - walk.i
decreasing_by
  obtain ⟨length_eq, later⟩ := turn_progress ‹_›
  omega

theorem run_nPath (walk : Walk) : walk.run.nPath = DotSegments.loop 47 46 walk.input walk.nPath := by
  induction walk using run.induct with
  | case1 walk inside ih =>
      have nonempty : walk.input ≠ [] := List.drop_eq_nil_iff.not.mpr (Nat.not_le.mpr inside)
      rw [run, if_pos inside, ih, DotSegments.loop_turn walk.nPath nonempty, turn_simulates inside]
  | case2 walk outside =>
      have nothing : walk.input = [] := List.drop_eq_nil_of_le (Nat.le_of_not_lt outside)
      rw [run, if_neg outside, nothing, DotSegments.loop_nil]

end Walk

/-- `Remove_Dot_Segments`. -/
def removeDotSegments (url : Object) : Object :=
  { url with nPath := (Walk.mk url.path 0 []).run.nPath }

theorem nPath_removeDotSegments (url : Object) :
    (removeDotSegments url).nPath = DotSegments.removeDotSegments 47 46 url.path :=
  Walk.run_nPath _

/-- Removing dot segments ends with the result of the algorithm for each path.  The result has no dot
segments, and is left as it is when they are removed from it. -/
theorem removeDotSegments_spec (url : Object) :
    (removeDotSegments url).nPath = DotSegments.removeDotSegments 47 46 url.path ∧
      DotSegments.NoDots 47 46 (removeDotSegments url).nPath ∧
      (removeDotSegments { url with path := (removeDotSegments url).nPath }).nPath =
        (removeDotSegments url).nPath := by
  have distinct : (46 : Octet) ≠ 47 := by decide
  have spec := nPath_removeDotSegments url
  refine ⟨spec, ?_, ?_⟩
  · rw [spec]
    exact DotSegments.noDots_removeDotSegments distinct url.path
  · rw [nPath_removeDotSegments, spec]
    exact DotSegments.removeDotSegments_idempotent distinct url.path

example : (removeDotSegments ⟨text "/a/b/c/./../../g", []⟩).nPath = text "/a/g" := by decide +kernel

example : (removeDotSegments ⟨text "mid/content=5/../6", []⟩).nPath = text "mid/6" := by decide +kernel

end Url
end AdaWebServer

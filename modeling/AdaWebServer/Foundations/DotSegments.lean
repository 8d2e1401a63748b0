import Mathlib.Data.List.TakeWhile

/-!
# Removing the dot segments of a path

The algorithm of RFC 3986, section 5.2.4, with its two buffers.  A path is a list over any alphabet with a
separator and a dot: the segments are what stands between the separators.
-/

namespace AdaWebServer
namespace Foundations
namespace DotSegments

variable {α : Type*} [DecidableEq α] {slash dot : α}

/-- No segment is a single dot or two dots. -/
def NoDots (slash dot : α) (path : List α) : Prop :=
  ∀ segment ∈ path.splitOn slash, segment ≠ [dot] ∧ segment ≠ [dot, dot]

instance (slash dot : α) (path : List α) : Decidable (NoDots slash dot path) :=
  inferInstanceAs (Decidable (∀ segment ∈ path.splitOn slash, _ ∧ _))

/-- The first segment of a path, with the separator in front of it. -/
def firstSegment (slash : α) : List α → List α
  | [] => []
  | first :: path => first :: path.takeWhile (· ≠ slash)

/-- What follows the first segment. -/
def afterFirst (slash : α) (path : List α) : List α := (path.drop 1).dropWhile (· ≠ slash)

/-- The path without its last segment and the separator in front of that. -/
def withoutLast (slash : α) (path : List α) : List α :=
  ((path.reverse.dropWhile (· ≠ slash)).drop 1).reverse

/-- One turn of the loop, on the input buffer and the output buffer. -/
def turn (slash dot : α) (input output : List α) : List α × List α :=
  -- A: a prefix that begins the path
  if [dot, dot, slash] <+: input then (input.drop 3, output)
  else if [dot, slash] <+: input then (input.drop 2, output)
  -- B: a single dot
  else if [slash, dot, slash] <+: input then (slash :: input.drop 3, output)
  else if input = [slash, dot] then ([slash], output)
  -- C: two dots
  else if [slash, dot, dot, slash] <+: input then (slash :: input.drop 4, withoutLast slash output)
  else if input = [slash, dot, dot] then ([slash], withoutLast slash output)
  -- D: nothing but dots
  else if input = [dot] ∨ input = [dot, dot] then ([], output)
  -- E: any other segment
  else (afterFirst slash input, output ++ firstSegment slash input)

/-! ## The turns -/

theorem first_append_after (slash : α) (path : List α) :
    firstSegment slash path ++ afterFirst slash path = path := by
  cases path with
  | nil => rfl
  | cons first path => exact congrArg (first :: ·) List.takeWhile_append_dropWhile

theorem length_afterFirst_lt {path : List α} (nonempty : path ≠ []) :
    (afterFirst slash path).length < path.length := by
  obtain ⟨first, path, rfl⟩ := List.exists_cons_of_ne_nil nonempty
  exact Nat.lt_succ_of_le (List.dropWhile_suffix _).length_le

theorem length_turn_lt {input : List α} (output : List α) (nonempty : input ≠ []) :
    (turn slash dot input output).1.length < input.length := by
  have positive := List.length_pos_iff.mpr nonempty
  rw [turn]
  split_ifs with parent same within last within_parent last_parent dots
  · rw [List.length_drop]
    omega
  · rw [List.length_drop]
    omega
  · have long := within.length_le
    simp only [List.length_cons, List.length_nil, List.length_drop] at long ⊢
    omega
  · rw [last]
    exact Nat.lt_add_one 1
  · have long := within_parent.length_le
    simp only [List.length_cons, List.length_nil, List.length_drop] at long ⊢
    omega
  · rw [last_parent]
    exact Nat.lt_add_left 1 (Nat.lt_add_one 1)
  · exact positive
  · exact length_afterFirst_lt nonempty

/-- The loop, which ends when the input is empty. -/
def loop (slash dot : α) (input output : List α) : List α :=
  if input = [] then output
  else loop slash dot (turn slash dot input output).1 (turn slash dot input output).2
termination_by input.length
decreasing_by exact length_turn_lt output ‹_›

theorem loop_nil (output : List α) : loop slash dot [] output = output := by
  rw [loop, if_pos rfl]

theorem loop_turn {input : List α} (output : List α) (nonempty : input ≠ []) :
    loop slash dot input output =
      loop slash dot (turn slash dot input output).1 (turn slash dot input output).2 := by
  rw [loop, if_neg nonempty]

/-- The algorithm. -/
def removeDotSegments (slash dot : α) (path : List α) : List α := loop slash dot path []

/-- What is preserved by the turns holds of the result. -/
theorem loop_induction {motive : List α → List α → Prop}
    (preserved : ∀ input output, input ≠ [] → motive input output →
      motive (turn slash dot input output).1 (turn slash dot input output).2)
    {input output : List α} (initially : motive input output) :
    motive [] (loop slash dot input output) := by
  induction input, output using loop.induct slash dot with
  | case1 output =>
      rw [loop_nil]
      exact initially
  | case2 input output nonempty ih =>
      rw [loop_turn output nonempty]
      exact ih (preserved input output nonempty initially)

/-! ## Segments -/

theorem noDots_nil : NoDots slash dot [] := by
  rintro segment member
  rw [List.splitOn_nil, List.mem_singleton] at member
  subst member
  exact ⟨nofun, nofun⟩

theorem noDots_append_cons (front back : List α) :
    NoDots slash dot (front ++ slash :: back) ↔ NoDots slash dot front ∧ NoDots slash dot back := by
  rw [NoDots, List.splitOn_append_cons_self, List.forall_mem_append]
  rfl

theorem noDots_cons (back : List α) : NoDots slash dot (slash :: back) ↔ NoDots slash dot back :=
  (noDots_append_cons [] back).trans (and_iff_right noDots_nil)

theorem noDots_single {segment : List α} (alone : slash ∉ segment) :
    NoDots slash dot segment ↔ segment ≠ [dot] ∧ segment ≠ [dot, dot] := by
  rw [NoDots, List.splitOn_eq_singleton alone, List.forall_mem_singleton]

theorem last_segment (path : List α) :
    slash ∉ path ∨ ∃ front last, path = front ++ slash :: last ∧ slash ∉ last := by
  by_cases alone : slash ∈ path
  · obtain ⟨last, front, reverse_eq, none⟩ :=
      List.eq_append_cons_of_mem (List.mem_reverse.mpr alone)
    refine .inr ⟨front.reverse, last.reverse, ?_, List.mem_reverse.not.mpr none⟩
    rw [← path.reverse_reverse, reverse_eq, List.reverse_append, List.reverse_cons,
      List.append_assoc]
    rfl
  · exact .inl alone

theorem withoutLast_of_notMem {path : List α} (alone : slash ∉ path) : withoutLast slash path = [] := by
  have nothing : path.reverse.dropWhile (· ≠ slash) = [] := by
    rw [List.dropWhile_eq_nil_iff]
    intro symbol member
    rw [decide_eq_true_eq]
    rintro rfl
    exact alone (List.mem_reverse.mp member)
  rw [withoutLast, nothing]
  rfl

theorem withoutLast_append_cons (front : List α) {last : List α} (alone : slash ∉ last) :
    withoutLast slash (front ++ slash :: last) = front := by
  have others : ∀ symbol ∈ last.reverse, decide (symbol ≠ slash) = true := by
    intro symbol member
    rw [decide_eq_true_eq]
    rintro rfl
    exact alone (List.mem_reverse.mp member)
  rw [withoutLast, List.reverse_append, List.reverse_cons, List.append_assoc,
    List.dropWhile_append_of_pos others, List.singleton_append,
    List.dropWhile_cons_of_neg (by simp), List.drop_one, List.tail_cons, List.reverse_reverse]

theorem NoDots.withoutLast {path : List α} (no_dots : NoDots slash dot path) :
    NoDots slash dot (withoutLast slash path) := by
  obtain alone | ⟨front, last, rfl, alone⟩ := @last_segment _ _ slash path
  · rw [withoutLast_of_notMem alone]
    exact noDots_nil
  · rw [withoutLast_append_cons front alone]
    exact ((noDots_append_cons front last).mp no_dots).1

theorem afterFirst_cases (path : List α) :
    afterFirst slash path = [] ∨ ∃ back, afterFirst slash path = slash :: back := by
  cases found : afterFirst slash path with
  | nil => exact .inl rfl
  | cons first back =>
      have stopped := List.head?_dropWhile_not (· ≠ slash) (path.drop 1)
      rw [← afterFirst, found] at stopped
      simp only [List.head?_cons, decide_eq_false_iff_not, not_not] at stopped
      exact .inr ⟨back, by rw [stopped]⟩

theorem notMem_firstSegment (path : List α) : slash ∉ (firstSegment slash path).drop 1 := by
  cases path with
  | nil => nofun
  | cons first path =>
      intro member
      have different := List.mem_takeWhile_imp member
      exact (decide_eq_true_eq.mp different) rfl

/-! ## Results of the algorithm -/

/-- A segment without separator is only appended to an empty output. -/
def Joined (slash : α) (input output : List α) : Prop :=
  output = [] ∨ input = [] ∨ ∃ back, input = slash :: back

/-- The segment that is moved by rule E has no dots. -/
theorem NoDots.append_firstSegment {input output : List α} (no_dots : NoDots slash dot output)
    (joined : Joined slash input output)
    (other : ∀ segment, firstSegment slash input = segment ∨ firstSegment slash input = slash :: segment →
      segment ≠ [dot] ∧ segment ≠ [dot, dot]) :
    NoDots slash dot (output ++ firstSegment slash input) := by
  have alone := @notMem_firstSegment _ _ slash input
  cases input with
  | nil => rwa [firstSegment, List.append_nil]
  | cons first path =>
      rw [firstSegment, List.drop_one, List.tail_cons] at alone
      rw [firstSegment] at other ⊢
      by_cases separated : first = slash
      · subst separated
        rw [noDots_append_cons]
        exact ⟨no_dots, (noDots_single alone).mpr (other _ (.inr rfl))⟩
      · obtain rfl | none | ⟨back, input_eq⟩ := joined
        · refine (noDots_single ?_).mpr (other _ (.inl rfl))
          exact List.not_mem_cons_of_ne_of_not_mem (Ne.symm separated) alone
        · cases none
        · exact absurd (List.cons.inj input_eq).1 separated

theorem firstSegment_cases {path segment : List α} (first : firstSegment slash path = segment) :
    path = segment ∨ segment ++ [slash] <+: path := by
  have whole := first_append_after slash path
  obtain nothing | ⟨back, separated⟩ := @afterFirst_cases _ _ slash path
  · rw [nothing, List.append_nil] at whole
    exact .inl (whole.symm.trans first)
  · rw [first, separated] at whole
    exact .inr ⟨back, by rw [List.append_assoc]; exact whole⟩

/-- What the turns preserve: the output has no dots, and segments are joined by separators. -/
def Sound (slash dot : α) (input output : List α) : Prop :=
  NoDots slash dot output ∧ Joined slash input output

theorem Sound.turn {input output : List α} (distinct : dot ≠ slash)
    (sound : Sound slash dot input output) :
    Sound slash dot (turn slash dot input output).1 (turn slash dot input output).2 := by
  obtain ⟨no_dots, joined⟩ := sound
  -- A path that begins with a dot is not joined to anything.
  have at_front : ∀ back, input = dot :: back → output = [] := by
    rintro back rfl
    obtain rfl | none | ⟨_, input_eq⟩ := joined
    · rfl
    · cases none
    · exact absurd (List.cons.inj input_eq).1 distinct
  rw [DotSegments.turn]
  split_ifs with parent same within last within_parent last_parent dots
  · obtain ⟨back, rfl⟩ := parent
    exact ⟨no_dots, .inl (at_front _ rfl)⟩
  · obtain ⟨back, rfl⟩ := same
    exact ⟨no_dots, .inl (at_front _ rfl)⟩
  · exact ⟨no_dots, .inr (.inr ⟨_, rfl⟩)⟩
  · exact ⟨no_dots, .inr (.inr ⟨_, rfl⟩)⟩
  · exact ⟨no_dots.withoutLast, .inr (.inr ⟨_, rfl⟩)⟩
  · exact ⟨no_dots.withoutLast, .inr (.inr ⟨_, rfl⟩)⟩
  · exact ⟨no_dots, .inr (.inl rfl)⟩
  · refine ⟨no_dots.append_firstSegment joined ?_, .inr (afterFirst_cases input)⟩
    rintro segment (plain | separated)
    · obtain rfl | followed := firstSegment_cases plain
      · exact not_or.mp dots
      · exact ⟨fun single => same (by rwa [single] at followed),
          fun double => parent (by rwa [double] at followed)⟩
    · obtain rfl | followed := firstSegment_cases separated
      · exact ⟨fun single => last (by rw [single]), fun double => last_parent (by rw [double])⟩
      · exact ⟨fun single => within (by rwa [single] at followed),
          fun double => within_parent (by rwa [double] at followed)⟩

theorem noDots_removeDotSegments (distinct : dot ≠ slash) (path : List α) :
    NoDots slash dot (removeDotSegments slash dot path) := by
  have sound : Sound slash dot [] (removeDotSegments slash dot path) :=
    loop_induction (fun _ _ _ => Sound.turn distinct) ⟨noDots_nil, .inl rfl⟩
  exact sound.1

/-- Rule E is the only one for a path without dots. -/
theorem turn_of_noDots {input : List α} (distinct : dot ≠ slash) (output : List α)
    (no_dots : NoDots slash dot input) :
    turn slash dot input output =
      (afterFirst slash input, output ++ firstSegment slash input) := by
  have alone : slash ∉ [dot] := List.mem_singleton.not.mpr distinct.symm
  have alone_both : slash ∉ [dot, dot] := List.not_mem_cons_of_ne_of_not_mem distinct.symm alone
  have single : ¬ NoDots slash dot [dot] := fun no_dots => ((noDots_single alone).mp no_dots).1 rfl
  have double : ¬ NoDots slash dot [dot, dot] :=
    fun no_dots => ((noDots_single alone_both).mp no_dots).2 rfl
  rw [turn]
  split_ifs with parent same within last within_parent last_parent dots
  · obtain ⟨back, rfl⟩ := parent
    exact absurd ((noDots_append_cons [dot, dot] back).mp no_dots).1 double
  · obtain ⟨back, rfl⟩ := same
    exact absurd ((noDots_append_cons [dot] back).mp no_dots).1 single
  · obtain ⟨back, rfl⟩ := within
    exact absurd ((noDots_append_cons [dot] back).mp ((noDots_cons _).mp no_dots)).1 single
  · rw [last] at no_dots
    exact absurd ((noDots_cons _).mp no_dots) single
  · obtain ⟨back, rfl⟩ := within_parent
    exact absurd ((noDots_append_cons [dot, dot] back).mp ((noDots_cons _).mp no_dots)).1 double
  · rw [last_parent] at no_dots
    exact absurd ((noDots_cons _).mp no_dots) double
  · obtain rfl | rfl := dots
    · exact absurd no_dots single
    · exact absurd no_dots double
  · rfl

theorem NoDots.afterFirst {path : List α} (no_dots : NoDots slash dot path) :
    NoDots slash dot (afterFirst slash path) := by
  have whole := first_append_after slash path
  obtain nothing | ⟨back, separated⟩ := @afterFirst_cases _ _ slash path
  · rw [nothing]
    exact noDots_nil
  · rw [separated] at whole ⊢
    rw [← whole, noDots_append_cons] at no_dots
    exact (noDots_cons back).mpr no_dots.2

theorem loop_of_noDots (distinct : dot ≠ slash) {input : List α} (output : List α)
    (no_dots : NoDots slash dot input) : loop slash dot input output = output ++ input := by
  induction input, output using loop.induct slash dot with
  | case1 output => rw [loop_nil, List.append_nil]
  | case2 input output nonempty ih =>
      rw [turn_of_noDots distinct output no_dots] at ih
      rw [loop_turn output nonempty, turn_of_noDots distinct output no_dots, ih no_dots.afterFirst,
        List.append_assoc, first_append_after]

theorem removeDotSegments_of_noDots (distinct : dot ≠ slash) {path : List α}
    (no_dots : NoDots slash dot path) : removeDotSegments slash dot path = path :=
  loop_of_noDots distinct [] no_dots

theorem removeDotSegments_idempotent (distinct : dot ≠ slash) (path : List α) :
    removeDotSegments slash dot (removeDotSegments slash dot path) =
      removeDotSegments slash dot path :=
  removeDotSegments_of_noDots distinct (noDots_removeDotSegments distinct path)

end DotSegments
end Foundations
end AdaWebServer

import AdaWebServer.Containers.ParameterLists

/-!
# Pieces of a form

A form that is read in pieces of a length is cut at the last ampersand of each piece, and each text
that is cut off is added on its own.  A parameter that is empty is lost in front of a cut; behind a
parameter that takes a whole piece an empty one may be added.
-/

namespace AdaWebServer
namespace Containers

open Http2 (Octet Text)
open Url (decode)

/-- The text without a question mark in front. -/
def skipMark (parameters : Text) : Text :=
  if parameters.head? = some 63 then parameters.drop 1 else parameters

/-- The parameters that are added from a text. -/
def addedStrings (parameters : Text) : List Text := parameterStrings [] (skipMark parameters)

/-- A text that is added on its own. -/
inductive Piece where
  /-- What is in front of the last ampersand. -/
  | cut (parameters : Text)
  /-- All that is in the buffer, without an ampersand. -/
  | whole (parameters : Text)
  /-- What is left at the end. -/
  | ending (parameters : Text)

namespace Piece

/-- The text of a piece. -/
def parameters : Piece → Text
  | .cut parameters | .whole parameters | .ending parameters => parameters

/-- The piece without a question mark in front. -/
def unmark : Piece → Piece
  | .cut parameters => .cut (skipMark parameters)
  | .whole parameters => .whole (skipMark parameters)
  | .ending parameters => .ending (skipMark parameters)

/-- There is a question mark in front. -/
def Marked (piece : Piece) : Prop := piece.parameters.head? = some 63

instance (piece : Piece) : Decidable piece.Marked := inferInstanceAs (Decidable (_ = _))

end Piece

/-- The pieces without the question mark in front of the first one. -/
def unmarked : List Piece → List Piece
  | [] => []
  | piece :: later => piece.unmark :: later

/-- The parameters that are added from the pieces. -/
def added (pieces : List Piece) : List Text :=
  pieces.flatMap fun piece => addedStrings piece.parameters

/-- The pieces of the given length into which a text is cut, behind what is carried from the piece
before, and whether another piece without an ampersand is refused. -/
inductive Cuts (length : Nat) : Bool → Text → Text → List Piece → Bool → Prop
  /-- The last piece has no ampersand. -/
  | ending {wasNotFound : Bool} {carried rest : Text} :
      carried.length + rest.length < length → 38 ∉ rest → (wasNotFound = true → rest = []) →
      Cuts length wasNotFound carried rest [.ending (carried ++ rest)] false
  /-- The last piece is cut. -/
  | cutEnding {wasNotFound : Bool} {carried before behind : Text} :
      carried.length + (before ++ 38 :: behind).length < length → 38 ∉ behind →
      Cuts length wasNotFound carried (before ++ 38 :: behind)
        [.cut (carried ++ before), .ending behind] false
  /-- A piece is cut. -/
  | cut {wasNotFound refused : Bool} {carried before behind rest : Text} {pieces : List Piece} :
      carried.length + (before ++ 38 :: behind).length = length → 38 ∉ behind →
      Cuts length wasNotFound behind rest pieces refused →
      Cuts length wasNotFound carried (before ++ 38 :: behind ++ rest)
        (.cut (carried ++ before) :: pieces) refused
  /-- A piece has no ampersand. -/
  | whole {refused : Bool} {carried line rest : Text} {pieces : List Piece} :
      carried.length + line.length = length → 38 ∉ line →
      Cuts length true [] rest pieces refused →
      Cuts length false carried (line ++ rest) (.whole (carried ++ line) :: pieces) refused
  /-- Another piece without an ampersand is refused. -/
  | refused {carried rest : Text} :
      38 ∉ rest.take (length - carried.length) → rest ≠ [] → Cuts length true carried rest [] true

variable {length : Nat} {wasNotFound refused : Bool} {carried rest before behind segment : Text}
variable {pieces : List Piece}

theorem exists_cut (there : 38 ∈ segment) :
    ∃ before behind, segment = before ++ 38 :: behind ∧ 38 ∉ behind := by
  obtain ⟨behind, before, reversed, absent⟩ := List.eq_append_cons_of_mem (List.mem_reverse.2 there)
  refine ⟨before.reverse, behind.reverse, ?_, fun among => absent (List.mem_reverse.1 among)⟩
  rw [← segment.reverse_reverse, reversed, List.reverse_append, List.reverse_cons,
    List.append_assoc, List.singleton_append]

/-- Every text is cut. -/
theorem exists_cuts (wasNotFound : Bool) {carried : Text} (room : carried.length < length)
    (rest : Text) :
    ∃ pieces refused, Cuts length wasNotFound carried rest pieces refused := by
  induction left : rest.length using Nat.strong_induction_on generalizing
    wasNotFound carried rest with
  | _ left_length ih =>
      subst left
      have split := List.take_append_drop (length - carried.length) rest
      have taken := @List.length_take _ (length - carried.length) rest
      have dropped := @List.length_drop _ (length - carried.length) rest
      by_cases short : carried.length + rest.length < length
      · by_cases there : 38 ∈ rest
        · obtain ⟨before, behind, rfl, absent⟩ := exists_cut there
          exact ⟨_, _, .cutEnding short absent⟩
        · by_cases twice : wasNotFound = true ∧ rest ≠ []
          · obtain ⟨rfl, some_rest⟩ := twice
            exact ⟨_, _, .refused (fun among => there (List.mem_of_mem_take among)) some_rest⟩
          · refine ⟨_, _, .ending short there fun once => ?_⟩
            by_contra some_rest
            exact twice ⟨once, some_rest⟩
      · have full :
            carried.length + (rest.take (length - carried.length)).length = length := by omega
        by_cases there : 38 ∈ rest.take (length - carried.length)
        · obtain ⟨before, behind, line_eq, absent⟩ := exists_cut there
          have parts := congrArg List.length line_eq
          rw [List.length_append, List.length_cons] at parts
          obtain ⟨pieces, refused, later⟩ := ih _ (by omega) wasNotFound
            (show behind.length < length by omega) (rest.drop (length - carried.length)) rfl
          rw [line_eq] at full split
          rw [← split]
          exact ⟨_, _, .cut full absent later⟩
        · cases wasNotFound with
          | true =>
              refine ⟨_, _, .refused there ?_⟩
              rintro rfl
              rw [List.length_nil] at short
              omega
          | false =>
              obtain ⟨pieces, refused, later⟩ := ih _ (by omega) true
                (show ([] : Text).length < length from Nat.zero_lt_of_lt room)
                (rest.drop (length - carried.length)) rfl
              rw [← split]
              exact ⟨_, _, .whole full there later⟩

theorem Cuts.at_end (cuts : Cuts length true [] rest pieces refused) (nothing : rest = [])
    (finished : refused = false) : pieces = [.ending []] := by
  cases cuts with
  | ending => rw [nothing, List.append_nil]
  | cutEnding => exact absurd nothing (List.append_ne_nil_of_right_ne_nil _ (List.cons_ne_nil _ _))
  | cut => simp at nothing
  | refused => cases finished

theorem Cuts.not_mem_of_ending {parameters : Text}
    (cuts : Cuts length wasNotFound carried rest pieces refused)
    (alone : pieces = [.ending parameters]) : 38 ∉ rest := by
  cases cuts with
  | ending _ absent => exact absent
  | cutEnding => cases alone
  | cut => cases alone
  | whole => cases alone
  | refused => cases alone

/-! ## What a cut loses -/

/-- The last parameter of a text is empty. -/
def Loses (parameters : Text) : Prop := parameters = [] ∨ parameters.getLast? = some 38

instance (parameters : Text) : Decidable (Loses parameters) := inferInstanceAs (Decidable (_ ∨ _))

/-- The parameters in front of an ampersand and behind it.  An empty one in front of it is one
more. -/
theorem parameterStrings_cut (current segment rest : Text) :
    parameterStrings current (segment ++ 38 :: rest) =
      parameterStrings current segment ++
        ((if segment = [] ∧ current = [] ∨ segment.getLast? = some 38 then [[]] else []) ++
          parameterStrings [] rest) := by
  induction segment generalizing current with
  | nil =>
      by_cases started : current = []
      · subst started
        rfl
      · have not_empty : ¬(([] : Text) = [] ∧ current = [] ∨ ([] : Text).getLast? = some 38) := by
          rintro (⟨-, nothing⟩ | impossible)
          · exact started nothing
          · cases impossible
        rw [if_neg not_empty]
        simp only [parameterStrings, if_true, if_neg started, List.nil_append, List.cons_append]
  | cons octet segment ih =>
      rw [List.cons_append, parameterStrings, parameterStrings]
      by_cases ampersand : octet = 38
      · subst ampersand
        rw [if_pos rfl, if_pos rfl, ih, List.cons_append]
        cases segment with
        | nil => rfl
        | cons next segment => simp
      · rw [if_neg ampersand, if_neg ampersand, ih]
        cases segment with
        | nil => simp [ampersand]
        | cons next segment => simp

theorem strings_cut (segment rest : Text) :
    parameterStrings [] (segment ++ 38 :: rest) =
      parameterStrings [] segment ++
        ((if Loses segment then [[]] else []) ++ parameterStrings [] rest) := by
  have cut := parameterStrings_cut [] segment rest
  simp only [and_true] at cut
  exact cut

theorem parameterStrings_piece (no_ampersand : 38 ∉ segment) :
    parameterStrings [] segment = if segment = [] then [] else [segment] := by
  have collected := @parameterStrings_append [] segment no_ampersand []
  rw [List.append_nil, List.nil_append] at collected
  exact collected

/-- What is in front of an ampersand is one parameter. -/
theorem strings_single (some_segment : segment ≠ []) (no_ampersand : 38 ∉ segment) (rest : Text) :
    parameterStrings [] (segment ++ 38 :: rest) = segment :: parameterStrings [] rest := by
  have keeps : ¬Loses segment := by
    rintro (nothing | last)
    · exact some_segment nothing
    · exact no_ampersand (List.mem_of_getLast? last)
  rw [strings_cut, if_neg keeps, parameterStrings_piece no_ampersand, if_neg some_segment]
  rfl

/-- A parameter has neither name nor value. -/
def Blank (parameter : Text) : Prop := parameter = [] ∨ parameter = [61]

instance (parameter : Text) : Decidable (Blank parameter) := inferInstanceAs (Decidable (_ ∨ _))

/-- How the parameters that have been added stand to those of the text. -/
inductive Standing where
  /-- They are the same. -/
  | even
  /-- They are the same, and the ampersand behind the last one has not been read. -/
  | behind
  /-- There is one more, and it is blank. -/
  | ahead

/-- The pieces give the parameters of the text: no cut loses a parameter, but for an empty one that
is lost where an empty one has been added and only blank ones have come since. -/
def Keeps : Standing → List Piece → Prop
  | .even, .cut parameters :: later => ¬Loses parameters ∧ Keeps .even later
  | .even, .whole parameters :: later =>
      (parameters = [] → later = [.ending []]) ∧ Keeps .behind later
  | .even, .ending _ :: _ => True
  | .behind, .cut [] :: later => Keeps .even later
  | .behind, .cut (octet :: parameters) :: later =>
      octet = 38 ∧ (∀ parameter ∈ parameterStrings [] parameters, Blank parameter) ∧
        if Loses parameters then Keeps .even later else Keeps .ahead later
  | .behind, .ending _ :: _ => True
  | .ahead, .cut parameters :: later =>
      (∀ parameter ∈ parameterStrings [] parameters, Blank parameter) ∧
        if Loses parameters then Keeps .even later else Keeps .ahead later
  | _, _ => False

/-- A list is behind one that begins with some items that are equal and goes on like it only where
all items are equal to them. -/
theorem append_eq_replicate_append {α : Type} {item : α} {count : Nat} {items left right : List α} :
    items ++ left = List.replicate (count + 1) item ++ (items ++ right) ↔
      (∀ other ∈ items, other = item) ∧ left = List.replicate (count + 1) item ++ right := by
  induction items with
  | nil => simp
  | cons other items ih =>
      rw [List.forall_mem_cons, and_assoc, ← ih]
      rw [List.replicate_succ, List.cons_append, List.cons_append,
        List.cons_append, List.cons.injEq]
      refine and_congr_right ?_
      rintro rfl
      rw [← List.replicate_succ, List.replicate_succ', List.append_assoc]
      rfl

/-! ## The parameters of the pieces -/

/-- The parameters that are read from the pieces. -/
def strings (pieces : List Piece) : List Text :=
  pieces.flatMap fun piece => parameterStrings [] piece.parameters

theorem mem_strings_cut {parameter : Text} (among : parameter ∈ parameterStrings [] rest)
    (segment : Text) : parameter ∈ parameterStrings [] (segment ++ 38 :: rest) := by
  rw [strings_cut]
  exact List.mem_append_right _ (List.mem_append_right _ among)

/-- A text is longer than its part before an octet that is no ampersand is one with a longer
parameter. -/
theorem exists_longer {octet : Octet} (no_ampersand : 38 ∉ segment) (other : octet ≠ 38)
    (rest : Text) : ∃ parameter ∈ parameterStrings [] (segment ++ octet :: rest),
      segment.length < parameter.length := by
  have longer : 38 ∉ segment ++ [octet] := by
    rw [List.mem_append, List.mem_singleton, not_or]
    exact ⟨no_ampersand, Ne.symm other⟩
  have begun : ∀ (current rest : Text), current ≠ [] →
      ∃ parameter ∈ parameterStrings current rest, current.length ≤ parameter.length := by
    intro current rest started
    induction rest generalizing current with
    | nil =>
        rw [parameterStrings, if_neg started]
        exact ⟨current, List.mem_singleton_self current, le_rfl⟩
    | cons next rest ih =>
        rw [parameterStrings]
        split_ifs
        · exact ⟨current, List.mem_cons_self, le_rfl⟩
        · obtain ⟨parameter, among, within⟩ := ih (current ++ [next])
            (List.append_ne_nil_of_right_ne_nil _ (List.cons_ne_nil _ _))
          rw [List.length_append] at within
          exact ⟨parameter, among, by omega⟩
  have split : segment ++ octet :: rest = segment ++ [octet] ++ rest := by
    rw [List.append_assoc, List.singleton_append]
  rw [split, parameterStrings_append longer, List.nil_append]
  obtain ⟨parameter, among, within⟩ := begun (segment ++ [octet]) rest
    (List.append_ne_nil_of_right_ne_nil _ (List.cons_ne_nil _ _))
  rw [List.length_append, List.length_singleton] at within
  exact ⟨parameter, among, by omega⟩

/-- How the parameters of the pieces stand to those of the text, as they are seen: what has neither
name nor value is seen in one way. -/
structure Compares {α : Type} (view : Text → α) (weight : Text → Nat) (length : Nat)
    (wasNotFound : Bool) (carried rest : Text) (pieces : List Piece) : Prop where
  even : (strings pieces).map view = (parameterStrings [] (carried ++ rest)).map view ↔
    Keeps .even pieces
  ahead : wasNotFound = true →
    (view [] :: (strings pieces).map view = (parameterStrings [] (carried ++ rest)).map view ↔
      Keeps .ahead pieces)
  lacking : ∀ count, (strings pieces).map view ≠
    List.replicate (count + 1) (view []) ++ (parameterStrings [] (carried ++ rest)).map view
  weighs : ((strings pieces).map weight).sum =
    ((parameterStrings [] (carried ++ rest)).map weight).sum
  behind : wasNotFound = true → carried = [] → ∀ later, rest = 38 :: later →
    ((strings pieces).map view = (parameterStrings [] later).map view ↔ Keeps .behind pieces) ∧
      (length = 1 → ∀ count, (strings pieces).map view ≠
        List.replicate (count + 1) (view []) ++ (parameterStrings [] later).map view) ∧
      ((strings pieces).map weight).sum = ((parameterStrings [] later).map weight).sum

section

variable {α : Type} {view : Text → α} {weight : Text → Nat}

theorem blank_of_view (blank : ∀ parameter, view parameter = view [] ↔ Blank parameter)
    {parameters : List Text} :
    (∀ seen ∈ parameters.map view, seen = view []) ↔ ∀ parameter ∈ parameters, Blank parameter := by
  rw [List.forall_mem_map]
  exact forall₂_congr fun parameter _ => blank parameter

theorem Compares.of_ending (wasNotFound : Bool) (no_ampersand : 38 ∉ rest) :
    Compares view weight length wasNotFound carried rest [.ending (carried ++ rest)] := by
  have strings_eq : strings [.ending (carried ++ rest)] = parameterStrings [] (carried ++ rest) :=
    List.append_nil _
  refine ⟨?_, fun _ => ?_, fun count same => ?_, ?_, ?_⟩
  · rw [strings_eq]
    exact iff_of_true rfl trivial
  · rw [strings_eq]
    exact iff_of_false (List.cons_ne_self _ _) id
  · rw [strings_eq] at same
    have lengths := congrArg List.length same
    rw [List.length_append, List.length_replicate] at lengths
    omega
  · rw [strings_eq]
  · rintro - - later rfl
    exact absurd List.mem_cons_self no_ampersand

/-- In front of a cut, as many parameters are lost as there are empty ones there. -/
theorem map_strings_cut (segment rest : Text) :
    (parameterStrings [] (segment ++ 38 :: rest)).map view =
      (parameterStrings [] segment).map view ++
        ((if Loses segment then [view []] else []) ++ (parameterStrings [] rest).map view) := by
  rw [strings_cut, List.map_append, List.map_append]
  congr 2
  split_ifs <;> rfl

theorem sum_strings_cut (weightless : weight [] = 0) (segment rest : Text) :
    ((parameterStrings [] (segment ++ 38 :: rest)).map weight).sum =
      ((parameterStrings [] segment).map weight).sum +
        ((parameterStrings [] rest).map weight).sum := by
  rw [map_strings_cut, List.sum_append, List.sum_append]
  split_ifs
  · rw [weightless]
    simp
  · simp

/-- What has been added is ahead before a cut, and after it. -/
theorem Compares.ahead_cut (blank : ∀ parameter, view parameter = view [] ↔ Blank parameter)
    (compares : Compares view weight length true behind rest pieces) (segment : Text) :
    (view [] :: ((parameterStrings [] segment).map view ++ (strings pieces).map view) =
        (parameterStrings [] (segment ++ 38 :: (behind ++ rest))).map view ↔
      (∀ parameter ∈ parameterStrings [] segment, Blank parameter) ∧
        if Loses segment then Keeps .even pieces else Keeps .ahead pieces) := by
  have moved := @append_eq_replicate_append α (view []) 0 ((parameterStrings [] segment).map view)
    ((if Loses segment then [view []] else []) ++ (parameterStrings [] (behind ++ rest)).map view)
    ((strings pieces).map view)
  rw [blank_of_view blank] at moved
  rw [map_strings_cut, eq_comm]
  refine moved.trans (and_congr_right fun _ => ?_)
  split_ifs
  · rw [← compares.even]
    show view [] :: _ = view [] :: _ ↔ _
    rw [List.cons.injEq]
    exact (and_iff_right rfl).trans eq_comm
  · rw [← compares.ahead rfl]
    exact eq_comm

theorem Compares.cut (blank : ∀ parameter, view parameter = view [] ↔ Blank parameter)
    (weightless : weight [] = 0)
    (full : carried.length + (before ++ 38 :: behind).length ≤ length)
    (compares : Compares view weight length wasNotFound behind rest pieces) :
    Compares view weight length wasNotFound carried (before ++ 38 :: behind ++ rest)
      (.cut (carried ++ before) :: pieces) := by
  have text_eq : carried ++ (before ++ 38 :: behind ++ rest) =
      carried ++ before ++ 38 :: (behind ++ rest) := by simp
  have strings_eq : (strings (.cut (carried ++ before) :: pieces)).map view =
      (parameterStrings [] (carried ++ before)).map view ++ (strings pieces).map view :=
    List.map_append
  have weights_eq : ((strings (.cut (carried ++ before) :: pieces)).map weight).sum =
      ((parameterStrings [] (carried ++ before)).map weight).sum +
        ((strings pieces).map weight).sum := by
    rw [← List.sum_append, ← List.map_append]
    rfl
  refine ⟨?_, ?_, fun count same => ?_, ?_, ?_⟩
  · rw [strings_eq, text_eq, map_strings_cut, List.append_right_inj, Keeps]
    split_ifs with loses
    · exact iff_of_false (compares.lacking 0) fun keeps => keeps.1 loses
    · rw [List.nil_append, compares.even]
      exact (and_iff_right loses).symm
  · rintro rfl
    rw [strings_eq, text_eq]
    exact compares.ahead_cut blank _
  · rw [strings_eq, text_eq, map_strings_cut, append_eq_replicate_append] at same
    obtain ⟨-, same⟩ := same
    split_ifs at same
    · refine compares.lacking (count + 1) (same.trans ?_)
      rw [← List.append_assoc, ← List.replicate_succ']
    · exact compares.lacking count same
  · rw [weights_eq, text_eq, sum_strings_cut weightless, compares.weighs]
  · rintro rfl rfl later rest_eq
    rw [List.nil_append] at strings_eq weights_eq ⊢
    cases before with
    | nil =>
        obtain rfl : behind ++ rest = later := (List.cons.inj rest_eq).2
        rw [strings_eq, weights_eq]
        exact ⟨compares.even, fun _ => compares.lacking,
          (Nat.zero_add _).trans compares.weighs⟩
    | cons octet before =>
        obtain ⟨rfl, later_eq⟩ := List.cons.inj rest_eq
        have split : later = before ++ 38 :: (behind ++ rest) := by
          rw [← later_eq]
          simp
        have first : parameterStrings [] (38 :: before) = [] :: parameterStrings [] before := rfl
        rw [strings_eq, weights_eq, first, split]
        refine ⟨?_, fun single => ?_, ?_⟩
        · refine (compares.ahead_cut blank before).trans ?_
          exact (and_iff_right rfl).symm
        · rw [List.length_append, List.length_cons, List.length_cons] at full
          omega
        · rw [sum_strings_cut weightless, ← compares.weighs, List.map_cons,
            List.sum_cons, weightless, Nat.zero_add]

/-- A parameter that takes a whole piece is followed by an ampersand, if it is not too long. -/
theorem ampersand_of_short {octet : Octet} {later : Text} (no_ampersand : 38 ∉ segment)
    (full : segment.length = length)
    (short : ∀ parameter ∈ parameterStrings [] (segment ++ octet :: later),
      parameter.length ≤ length) :
    octet = 38 := by
  by_contra other
  obtain ⟨parameter, among, longer⟩ := exists_longer no_ampersand other later
  have := short parameter among
  omega

theorem Compares.whole (blank : ∀ parameter, view parameter = view [] ↔ Blank parameter)
    (room : carried.length < length) (no_carried : 38 ∉ carried)
    {line : Text} (full : carried.length + line.length = length) (no_ampersand : 38 ∉ line)
    (short : ∀ parameter ∈ parameterStrings [] (carried ++ (line ++ rest)),
      parameter.length ≤ length)
    (cuts : Cuts length true [] rest pieces false)
    (compares : Compares view weight length true [] rest pieces) :
    Compares view weight length false carried (line ++ rest)
      (.whole (carried ++ line) :: pieces) := by
  have absent : 38 ∉ carried ++ line := fun among =>
    (List.mem_append.1 among).elim no_carried no_ampersand
  have line_length : (carried ++ line).length = length := by rw [List.length_append, full]
  have something : carried ++ line ≠ [] := by
    rw [← List.length_pos_iff, line_length]
    omega
  have single : parameterStrings [] (carried ++ line) = [carried ++ line] := by
    rw [parameterStrings_piece absent, if_neg something]
  have strings_eq : strings (.whole (carried ++ line) :: pieces) =
      (carried ++ line) :: strings pieces := by
    rw [strings, List.flatMap_cons, Piece.parameters, single]
    rfl
  have started : carried ++ line = [] → pieces = [.ending []] :=
    fun nothing => absurd nothing something
  rw [← List.append_assoc] at short
  cases rest with
  | nil =>
      obtain rfl := cuts.at_end rfl rfl
      have no_more : strings [.ending []] = [] := rfl
      rw [no_more] at strings_eq
      have text_eq : carried ++ (line ++ []) = carried ++ line := by rw [List.append_nil]
      refine ⟨?_, (by rintro ⟨⟩), fun count same => ?_, ?_, (by rintro ⟨⟩)⟩
      · rw [strings_eq, text_eq, single]
        exact iff_of_true rfl ⟨started, trivial⟩
      · rw [strings_eq, text_eq, single] at same
        have lengths := congrArg List.length same
        rw [List.length_append, List.length_replicate] at lengths
        omega
      · rw [strings_eq, text_eq, single]
  | cons octet later =>
      obtain rfl := ampersand_of_short absent line_length short
      obtain ⟨same_iff, lacking, weighs⟩ := compares.behind rfl rfl later rfl
      have text_eq : carried ++ (line ++ 38 :: later) = carried ++ line ++ 38 :: later :=
        (List.append_assoc _ _ _).symm
      refine ⟨?_, (by rintro ⟨⟩), fun count same => ?_, ?_, (by rintro ⟨⟩)⟩
      · rw [strings_eq, text_eq, strings_single something absent, List.map_cons, List.map_cons,
          List.cons.injEq, Keeps, same_iff, and_iff_right rfl, and_iff_right started]
      · have moved := @append_eq_replicate_append α (view []) count [view (carried ++ line)]
          ((strings pieces).map view) ((parameterStrings [] later).map view)
        rw [strings_eq, text_eq, strings_single something absent, List.map_cons,
          List.map_cons] at same
        obtain ⟨same_view, same⟩ := moved.1 same
        have length_le : (carried ++ line).length ≤ 1 := by
          obtain nothing | equals := (blank _).1 (same_view _ (List.mem_singleton_self _))
          · exact absurd nothing something
          · rw [equals]
            exact le_rfl
        exact lacking (by omega) count same
      · rw [strings_eq, text_eq, strings_single something absent, List.map_cons, List.map_cons,
          List.sum_cons, List.sum_cons, weighs]

/-- The parameters that are read from the pieces are those of the text exactly if the pieces keep
them. -/
theorem Cuts.compares (blank : ∀ parameter, view parameter = view [] ↔ Blank parameter)
    (weightless : weight [] = 0) (cuts : Cuts length wasNotFound carried rest pieces refused)
    (finished : refused = false) (room : carried.length < length) (no_carried : 38 ∉ carried)
    (short : ∀ parameter ∈ parameterStrings [] (carried ++ rest), parameter.length ≤ length) :
    Compares view weight length wasNotFound carried rest pieces := by
  induction cuts with
  | ending inside no_ampersand not_twice => exact Compares.of_ending _ no_ampersand
  | @cutEnding wasNotFound carried before behind inside no_ampersand =>
      have last : Compares view weight length wasNotFound behind [] [.ending (behind ++ [])] :=
        Compares.of_ending wasNotFound List.not_mem_nil
      have cut : Compares view weight length wasNotFound carried (before ++ 38 :: behind ++ [])
          (.cut (carried ++ before) :: [.ending (behind ++ [])]) :=
        last.cut blank weightless inside.le
      rwa [List.append_nil, List.append_nil] at cut
  | @cut wasNotFound refused carried before behind rest pieces full no_ampersand cuts ih =>
      have parts := @List.length_append _ before (38 :: behind)
      rw [List.length_cons] at parts
      have text_eq : carried ++ (before ++ 38 :: behind ++ rest) =
          carried ++ before ++ 38 :: (behind ++ rest) := by simp
      rw [text_eq] at short
      exact (ih finished (by omega) no_ampersand fun parameter among =>
        short parameter (mem_strings_cut among _)).cut blank weightless full.le
  | @whole refused carried line rest pieces full no_ampersand cuts ih =>
      subst finished
      have later : Compares view weight length true [] rest pieces := by
        refine ih rfl (Nat.zero_lt_of_lt room) List.not_mem_nil fun parameter among => ?_
        rw [← List.append_assoc] at short
        cases rest with
        | nil => cases among
        | cons octet later =>
            have absent : 38 ∉ carried ++ line := fun among =>
              (List.mem_append.1 among).elim no_carried no_ampersand
            obtain rfl := ampersand_of_short absent (by rw [List.length_append, full]) short
            obtain rfl | among := List.mem_cons.1 among
            · exact Nat.zero_le length
            · exact short parameter (mem_strings_cut among _)
      exact later.whole blank room no_carried full no_ampersand short cuts
  | refused => cases finished

end

/-! ## Question marks -/

theorem skipMark_append (before behind : Text) :
    skipMark (before ++ 38 :: behind) = skipMark before ++ 38 :: behind := by
  cases before with
  | nil => rfl
  | cons octet before =>
      rw [skipMark, skipMark, List.cons_append, List.head?_cons, List.head?_cons]
      split_ifs <;> rfl

theorem length_skipMark (parameters : Text) : (skipMark parameters).length ≤ parameters.length := by
  rw [skipMark]
  split_ifs
  · rw [List.length_drop]
    exact Nat.sub_le _ _
  · exact le_rfl

/-- How much there is in a parameter. -/
def parameterWeight (parameter : Text) : Nat :=
  (decode true (parameter.takeWhile (· ≠ 61))).length +
    (decode true ((parameter.dropWhile (· ≠ 61)).drop 1)).length

theorem parameterWeight_mark (parameter : Text) :
    parameterWeight (63 :: parameter) = parameterWeight parameter + 1 := by
  have decoded : decode true (63 :: parameter.takeWhile (· ≠ 61)) =
      63 :: decode true (parameter.takeWhile (· ≠ 61)) :=
    Url.decode_cons true 63 _ (by rintro ⟨⟨⟩, _⟩)
  rw [parameterWeight, parameterWeight, List.takeWhile_cons_of_pos (by decide),
    List.dropWhile_cons_of_pos (by decide), decoded, List.length_cons]
  omega

/-- A question mark in front counts in the first parameter. -/
theorem sum_strings_mark (current parameters : Text) :
    ((parameterStrings (63 :: current) parameters).map parameterWeight).sum =
      ((parameterStrings current parameters).map parameterWeight).sum + 1 := by
  induction parameters generalizing current with
  | nil =>
      rw [parameterStrings, parameterStrings, if_neg (List.cons_ne_nil _ _)]
      split_ifs with nothing
      · rw [nothing]
        rfl
      · rw [List.map_singleton, List.map_singleton, List.sum_singleton, List.sum_singleton,
          parameterWeight_mark]
  | cons octet parameters ih =>
      rw [parameterStrings, parameterStrings]
      split_ifs
      · rw [List.map_cons, List.map_cons, List.sum_cons, List.sum_cons, parameterWeight_mark]
        omega
      · exact ih (current ++ [octet])

/-- A question mark in front of a text is not added. -/
theorem sum_addedStrings (parameters : Text) :
    ((parameterStrings [] parameters).map parameterWeight).sum =
      ((addedStrings parameters).map parameterWeight).sum +
        if parameters.head? = some 63 then 1 else 0 := by
  rw [addedStrings, skipMark]
  split_ifs with marked
  · obtain ⟨octet, later, rfl⟩ := List.exists_cons_of_ne_nil
      (fun nothing : parameters = [] => by rw [nothing] at marked; cases marked)
    obtain rfl : octet = 63 := Option.some.inj marked
    exact sum_strings_mark [] later
  · rfl

theorem sum_added (pieces : List Piece) :
    ((strings pieces).map parameterWeight).sum =
      ((added pieces).map parameterWeight).sum + pieces.countP (·.Marked) := by
  induction pieces with
  | nil => rfl
  | cons piece later ih =>
      have strings_eq : strings (piece :: later) =
          parameterStrings [] piece.parameters ++ strings later := rfl
      have added_eq : added (piece :: later) = addedStrings piece.parameters ++ added later := rfl
      rw [strings_eq, added_eq, List.map_append, List.map_append, List.sum_append, List.sum_append,
        ih, sum_addedStrings, List.countP_cons]
      have counted : (if decide piece.Marked = true then 1 else 0) =
          if piece.parameters.head? = some 63 then 1 else 0 :=
        if_congr decide_eq_true_iff rfl rfl
      omega

theorem added_of_unmarked {pieces : List Piece} (none_marked : ∀ piece ∈ pieces, ¬piece.Marked) :
    added pieces = strings pieces := by
  rw [added, strings]
  refine List.flatMap_congr fun piece among => ?_
  have plain : skipMark piece.parameters = piece.parameters := if_neg (none_marked piece among)
  rw [addedStrings, plain]

theorem added_cons (piece : Piece) (later : List Piece) :
    added (piece :: later) = parameterStrings [] piece.unmark.parameters ++ added later := by
  cases piece <;> rfl

/-! ## The pieces of a text -/

variable {body : Text} {α : Type} {view : Text → α}

/-- A text that begins with a question mark and then with a parameter, of which the length and one
more octet are read without an ampersand. -/
def SplitsMarked (length : Nat) (body : Text) : Prop :=
  body.head? = some 63 ∧ length < body.length ∧ 38 ∉ body.take (length + 1)

instance (length : Nat) (body : Text) : Decidable (SplitsMarked length body) :=
  inferInstanceAs (Decidable (_ ∧ _))

theorem compares_whole_marked {weight : Text → Nat} (weightless : weight [] = 0) {line : Text}
    (full : (63 :: line).length = length) (no_ampersand : 38 ∉ line)
    (ended : ∀ octet later, rest = octet :: later → octet = 38)
    (cuts : Cuts length true [] rest pieces false)
    (compares : Compares view weight length true [] rest pieces) :
    ((strings (.whole line :: pieces)).map view = (parameterStrings [] (line ++ rest)).map view ↔
        Keeps .even (.whole line :: pieces)) ∧
      ((strings (.whole line :: pieces)).map weight).sum =
        ((parameterStrings [] (line ++ rest)).map weight).sum := by
  have strings_eq :
      strings (.whole line :: pieces) = parameterStrings [] line ++ strings pieces := rfl
  rw [strings_eq]
  cases rest with
  | nil =>
      obtain rfl := cuts.at_end rfl rfl
      have no_more : strings [.ending []] = [] := rfl
      rw [no_more, List.append_nil, List.append_nil]
      exact ⟨iff_of_true rfl ⟨fun _ => rfl, trivial⟩, rfl⟩
  | cons octet later =>
      obtain rfl := ended octet later rfl
      obtain ⟨same_iff, lacking, weighs⟩ := compares.behind rfl rfl later rfl
      by_cases nothing : line = []
      · subst nothing
        have single : length = 1 := full.symm
        refine ⟨iff_of_false (lacking single 0) fun keeps => ?_, ?_⟩
        · exact cuts.not_mem_of_ending (keeps.1 rfl) List.mem_cons_self
        · show ((strings pieces).map weight).sum =
            (([] :: parameterStrings [] later).map weight).sum
          rw [weighs, List.map_cons, List.sum_cons, weightless, Nat.zero_add]
      · rw [parameterStrings_piece no_ampersand, if_neg nothing,
          strings_single nothing no_ampersand, List.singleton_append]
        refine ⟨?_, ?_⟩
        · rw [List.map_cons, List.map_cons, List.cons.injEq, and_iff_right rfl, Keeps, same_iff]
          exact (and_iff_right fun is_empty => absurd is_empty nothing).symm
        · rw [List.map_cons, List.map_cons, List.sum_cons, List.sum_cons, weighs]

/-- What is behind a piece has no parameter that is too long, if the text has none. -/
theorem short_rest {line : Text} (ended : ∀ octet later, rest = octet :: later → octet = 38)
    (short : ∀ parameter ∈ parameterStrings [] (line ++ rest), parameter.length ≤ length) :
    ∀ parameter ∈ parameterStrings [] ([] ++ rest), parameter.length ≤ length := by
  intro parameter among
  cases rest with
  | nil => cases among
  | cons octet later =>
      obtain rfl := ended octet later rfl
      obtain rfl | among := List.mem_cons.1 among
      · exact Nat.zero_le length
      · exact short parameter (mem_strings_cut among line)

/-- The pieces of a whole text, without the question mark in front of it. -/
theorem Cuts.compares_unmarked (blank : ∀ parameter, view parameter = view [] ↔ Blank parameter)
    {weight : Text → Nat} (weightless : weight [] = 0) (positive : 0 < length)
    (cuts : Cuts length false [] body pieces false)
    (short : ∀ parameter ∈ addedStrings body, parameter.length ≤ length)
    (unsplit : ¬SplitsMarked length body) :
    ((strings (unmarked pieces)).map view = (addedStrings body).map view ↔
        Keeps .even (unmarked pieces)) ∧
      ((strings (unmarked pieces)).map weight).sum = ((addedStrings body).map weight).sum := by
  -- In front of a cut the text is the one without its question mark.
  have of_cut : ∀ {before behind rest : Text} {pieces : List Piece},
      ([] : Text).length + (before ++ 38 :: behind).length ≤ length →
      Compares view weight length false behind rest pieces →
      ((strings (.cut (skipMark before) :: pieces)).map view =
          (addedStrings (before ++ 38 :: behind ++ rest)).map view ↔
            Keeps .even (.cut (skipMark before) :: pieces)) ∧
        ((strings (.cut (skipMark before) :: pieces)).map weight).sum =
          ((addedStrings (before ++ 38 :: behind ++ rest)).map weight).sum := by
    intro before behind rest pieces inside compares
    have skipped := length_skipMark before
    have within : ([] : Text).length + (skipMark before ++ 38 :: behind).length ≤ length := by
      rw [List.length_append] at inside ⊢
      omega
    have cut : Compares view weight length false [] (skipMark before ++ 38 :: behind ++ rest)
        (.cut (skipMark before) :: pieces) := compares.cut blank weightless within
    have text_eq : skipMark (before ++ 38 :: behind ++ rest) =
        skipMark before ++ 38 :: behind ++ rest := by
      rw [List.append_assoc, List.append_assoc, List.cons_append, skipMark_append]
    rw [addedStrings, text_eq]
    exact ⟨cut.even, cut.weighs⟩
  cases cuts with
  | ending inside no_ampersand =>
      have last : strings (unmarked [.ending ([] ++ body)]) = addedStrings body := List.append_nil _
      rw [last]
      exact ⟨iff_of_true rfl trivial, rfl⟩
  | @cutEnding _ _ before behind inside no_ampersand =>
      have last : Compares view weight length false behind [] [.ending (behind ++ [])] :=
        Compares.of_ending false List.not_mem_nil
      have both := of_cut inside.le last
      rwa [List.append_nil, List.append_nil] at both
  | @cut _ _ _ before behind rest pieces full no_ampersand cuts =>
      have parts := @List.length_append _ before (38 :: behind)
      rw [List.length_cons] at parts
      refine of_cut full.le (cuts.compares blank weightless rfl (by omega) no_ampersand ?_)
      intro parameter among
      apply short
      rw [addedStrings, List.append_assoc, List.cons_append, skipMark_append]
      exact mem_strings_cut among _
  | @whole _ _ line rest pieces full no_ampersand cuts =>
      rw [List.length_nil, Nat.zero_add] at full
      cases line with
      | nil => exact absurd full positive.ne
      | cons first line =>
          rw [List.mem_cons, not_or] at no_ampersand
          by_cases marked : first = 63
          · subst marked
            have ended : ∀ octet later, rest = octet :: later → octet = 38 := by
              rintro octet later rfl
              by_contra other
              refine unsplit ⟨rfl, ?_, ?_⟩
              · rw [List.length_append, full, List.length_cons]
                omega
              · have taken : (63 :: line ++ octet :: later).take (length + 1) =
                    63 :: line ++ [octet] := by
                  have split : 63 :: line ++ octet :: later = 63 :: line ++ [octet] ++ later := by
                    rw [List.append_assoc, List.singleton_append]
                  rw [split]
                  exact List.take_left' (by rw [List.length_append, full, List.length_singleton])
                rw [taken, List.mem_append, List.mem_cons, List.mem_singleton]
                rintro ((mark | among) | ampersand)
                · exact absurd mark (by decide)
                · exact no_ampersand.2 among
                · exact other ampersand.symm
            have plain_short : ∀ parameter ∈ parameterStrings [] (line ++ rest),
                parameter.length ≤ length := short
            exact compares_whole_marked weightless full no_ampersand.2 ended cuts
              (cuts.compares blank weightless rfl positive List.not_mem_nil
                (short_rest ended plain_short))
          · have plain : ∀ later : Text, skipMark (first :: later) = first :: later :=
              fun later => if_neg fun mark => marked (Option.some.inj mark)
            have absent : 38 ∉ first :: line := by
              rw [List.mem_cons, not_or]
              exact no_ampersand
            have whole : Cuts length false [] (first :: line ++ rest)
                (.whole ([] ++ first :: line) :: pieces) false :=
              .whole (by rw [List.length_nil, Nat.zero_add, full]) absent cuts
            have head_eq : unmarked (.whole ([] ++ first :: line) :: pieces) =
                .whole ([] ++ first :: line) :: pieces := by
              rw [List.nil_append, unmarked, Piece.unmark, plain]
            have body_eq : addedStrings (first :: line ++ rest) =
                parameterStrings [] ([] ++ (first :: line ++ rest)) := by
              rw [addedStrings, List.cons_append, plain]
              rfl
            rw [body_eq] at short
            have compares : Compares view weight length false [] (first :: line ++ rest)
                (.whole ([] ++ first :: line) :: pieces) :=
              whole.compares blank weightless rfl positive List.not_mem_nil short
            rw [head_eq, body_eq]
            exact ⟨compares.even, compares.weighs⟩

theorem map_eq_of_view {parameters others : List Text} {weight : Text → Nat}
    (weighed : ∀ one other, view one = view other → weight one = weight other)
    (same : parameters.map view = others.map view) : parameters.map weight = others.map weight := by
  induction parameters generalizing others with
  | nil =>
      cases others with
      | nil => rfl
      | cons other others => cases same
  | cons parameter parameters ih =>
      cases others with
      | nil => cases same
      | cons other others =>
          obtain ⟨first, later⟩ := List.cons.inj same
          rw [List.map_cons, List.map_cons, weighed _ _ first, ih later]

/-- The parameters that are added from the pieces are seen as those of the text exactly if no piece
but the first one begins with a question mark, and the pieces keep the parameters. -/
theorem Cuts.map_added_iff (blank : ∀ parameter, view parameter = view [] ↔ Blank parameter)
    (weighed : ∀ one other, view one = view other → parameterWeight one = parameterWeight other)
    (positive : 0 < length) (cuts : Cuts length false [] body pieces false)
    (short : ∀ parameter ∈ addedStrings body, parameter.length ≤ length)
    (unsplit : ¬SplitsMarked length body) :
    (added pieces).map view = (addedStrings body).map view ↔
      (∀ piece ∈ pieces.tail, ¬piece.Marked) ∧ Keeps .even (unmarked pieces) := by
  have weightless : parameterWeight [] = 0 := rfl
  obtain ⟨same_iff, weighs⟩ := cuts.compares_unmarked blank weightless positive short unsplit
  cases pieces with
  | nil => cases cuts
  | cons piece later =>
      have strings_eq : strings (unmarked (piece :: later)) =
          parameterStrings [] piece.unmark.parameters ++ strings later := rfl
      rw [List.tail_cons]
      constructor
      · intro same
        have sums := congrArg List.sum (map_eq_of_view weighed same)
        rw [← weighs, strings_eq, added_cons, List.map_append, List.map_append, List.sum_append,
          List.sum_append, sum_added] at sums
        have none_marked : ∀ piece ∈ later, ¬piece.Marked := by
          have counted : later.countP (·.Marked) = 0 := by omega
          intro other among
          exact of_decide_eq_false (Bool.eq_false_iff.2 (List.countP_eq_zero.1 counted other among))
        refine ⟨none_marked, same_iff.1 ?_⟩
        rw [← same, strings_eq, added_cons, added_of_unmarked none_marked]
      · rintro ⟨none_marked, keeps⟩
        rw [← same_iff.2 keeps, strings_eq, added_cons, added_of_unmarked none_marked]

/-- What is read behind a whole piece begins with an ampersand, if the pieces keep the
parameters. -/
theorem Cuts.ampersand_of_keeps {octet : Octet} {later : Text}
    (cuts : Cuts length true carried rest pieces refused) (fresh : carried = [])
    (some_rest : rest = octet :: later) (keeps : Keeps .behind pieces) : octet = 38 := by
  have in_front : ∀ {before others : Text} {pieces : List Piece},
      before ++ 38 :: others = octet :: later → Keeps .behind (.cut ([] ++ before) :: pieces) →
        octet = 38 := by
    intro before others pieces same keeps
    cases before with
    | nil => exact (List.cons.inj same).1.symm
    | cons first before =>
        rw [← (List.cons.inj same).1]
        exact keeps.1
  cases cuts with
  | ending _ _ not_twice => cases (not_twice rfl).symm.trans some_rest
  | cutEnding =>
      subst fresh
      exact in_front some_rest keeps
  | cut =>
      subst fresh
      rw [List.append_assoc, List.cons_append] at some_rest
      exact in_front some_rest keeps
  | refused => cases keeps

theorem Cuts.unsplit_of_keeps (cuts : Cuts length false [] body pieces refused)
    (keeps : Keeps .even (unmarked pieces)) : ¬SplitsMarked length body := by
  rintro ⟨mark, longer, absent⟩
  cases cuts with
  | ending inside =>
      rw [List.length_nil] at inside
      omega
  | cutEnding inside =>
      rw [List.length_nil] at inside
      omega
  | @cut _ _ _ before behind rest _ full =>
      rw [List.length_nil, Nat.zero_add] at full
      refine absent ?_
      rw [List.take_append, List.take_of_length_le (by omega)]
      exact List.mem_append_left _ (List.mem_append_right _ List.mem_cons_self)
  | @whole _ _ line rest pieces full _ cuts =>
      rw [List.length_nil, Nat.zero_add] at full
      cases rest with
      | nil =>
          rw [List.append_nil] at longer
          omega
      | cons octet later =>
          have ampersand := cuts.ampersand_of_keeps rfl rfl keeps.2
          refine absent ?_
          have split : line ++ octet :: later = line ++ [octet] ++ later := by
            rw [List.append_assoc, List.singleton_append]
          rw [split, List.take_left' (by rw [List.length_append, full, List.length_singleton]),
            ampersand]
          exact List.mem_append_right _ (List.mem_singleton_self 38)

theorem length_le_of_mem {parameter current : Text}
    (among : parameter ∈ parameterStrings current segment) :
    parameter.length ≤ current.length + segment.length := by
  induction segment generalizing current with
  | nil =>
      rw [parameterStrings] at among
      split_ifs at among
      · cases among
      · rw [List.mem_singleton.1 among]
        exact Nat.le_add_right _ _
  | cons octet segment ih =>
      rw [List.length_cons]
      rw [parameterStrings] at among
      split_ifs at among
      · obtain rfl | later := List.mem_cons.1 among
        · exact Nat.le_add_right _ _
        · have bounded := ih later
          rw [List.length_nil] at bounded
          omega
      · have bounded := ih among
        rw [List.length_append, List.length_singleton] at bounded
        omega

theorem length_le_of_mem_addedStrings {parameter : Text}
    (among : parameter ∈ addedStrings segment) :
    parameter.length ≤ segment.length := by
  have bounded := length_le_of_mem among
  have skipped := length_skipMark segment
  rw [List.length_nil, Nat.zero_add] at bounded
  omega

end Containers
end AdaWebServer

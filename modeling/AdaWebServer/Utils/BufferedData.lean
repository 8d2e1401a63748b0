import AdaWebServer.Foundations.Loops
import AdaWebServer.Http2.Basic

/-!
# Buffered data

Data are collected in an array of a fixed size.  What the array holds is given to an action each time
it is full, and when the buffer is flushed.
-/

namespace AdaWebServer
namespace Utils

open Http2 (Octets Exn)

/-- The variables of `Buffered_Data`, with what has been given to the action.  `Content` is null or
has been filled up to `Pos`. -/
structure BufferedData where
  content : Option Octets := some []
  pos : Nat := 0
  given : List Octets := []
  deriving DecidableEq

namespace BufferedData

/-- A turn of the loop of `Add`, with the data from `First` on.  Each chunk is computed from the length
of all the data, and taking it from what is left is checked. -/
def addTurn (maxSize length : Nat) (state : Octets × BufferedData) :
    Trial Exn (Turn (Octets × BufferedData) BufferedData) :=
  if state.1 = [] then .ok (.leave state.2)
  else
    let free := maxSize - state.2.pos
    let chunk := min length free
    match state.2.content with
    | none => .error (.raised .constraintError)
    | some content =>
        if state.1.length < chunk then .error (.raised .constraintError)
        else
          let stored := content ++ state.1.take chunk
          let pos := state.2.pos + chunk
          if pos = maxSize then
            .ok (.again (state.1.drop chunk,
              { content := some [], pos := 0, given := state.2.given ++ [stored] }))
          else
            .ok (.again (state.1.drop chunk, { state.2 with content := some stored, pos }))

/-- `Add`. -/
def add (maxSize times : Nat) (data : Octets) (buffered : BufferedData) : Trial Exn BufferedData :=
  turns (addTurn maxSize data.length) times (data, buffered)

/-- `Flush`, which frees what it has given to the action and allocates nothing. -/
def flush (buffered : BufferedData) : BufferedData :=
  if 0 < buffered.pos then
    { content := none
      pos := 0
      given := buffered.given ++ [(buffered.content.getD []).take buffered.pos] }
  else buffered

end BufferedData

/-- A call of the package. -/
inductive BufferCall where
  | add (data : Octets)
  | flush

namespace BufferCall

/-- The data that a call adds. -/
def data : BufferCall → Octets
  | add data => data
  | flush => []

/-- A call that is performed. -/
def perform (maxSize times : Nat) (buffered : BufferedData) : BufferCall → Trial Exn BufferedData
  | add data => buffered.add maxSize times data
  | flush => .ok buffered.flush

/-- The calls, followed by a flush, give to the action what they add. -/
def Transparent (maxSize : Nat) (calls : List BufferCall) : Prop :=
  ∃ times buffered, (calls ++ [flush]).foldlM (perform maxSize times) {} = .ok buffered ∧
    buffered.given.flatten = calls.flatMap data

/-- The condition for calls on a buffer that holds some octets, or has been freed: the data fit in what is
free, or the last octet of them fills the buffer; none are added once a flush has freed it. -/
def Fit (maxSize : Nat) : Nat → Bool → List BufferCall → Prop
  | _, _, [] => True
  | pos, freed, add data :: calls =>
      (data = [] ∨ freed = false ∧ (pos + data.length ≤ maxSize ∨ maxSize ∣ pos + data.length)) ∧
        Fit maxSize ((pos + data.length) % maxSize) freed calls
  | pos, freed, flush :: calls => Fit maxSize 0 (freed || decide (0 < pos)) calls

instance decidableFit (maxSize : Nat) :
    (pos : Nat) → (freed : Bool) → (calls : List BufferCall) → Decidable (Fit maxSize pos freed calls)
  | _, _, [] => isTrue trivial
  | _, freed, add _ :: calls => @instDecidableAnd _ _ inferInstance (decidableFit maxSize _ freed calls)
  | _, _, flush :: calls => decidableFit maxSize 0 _ calls

end BufferCall

namespace BufferedData

variable {maxSize times length : Nat} {data rest content : Octets} {given : List Octets}

/-! ## The loop -/

theorem addTurn_nil (buffered : BufferedData) :
    addTurn maxSize length ([], buffered) = .ok (.leave buffered) :=
  if_pos rfl

/-- What is left is shorter than the chunk. -/
theorem addTurn_short {pos : Nat} (some_rest : rest ≠ [])
    (short : rest.length < min length (maxSize - pos)) :
    addTurn maxSize length (rest, ⟨some content, pos, given⟩) =
      .error (.raised .constraintError) := by
  rw [addTurn, if_neg some_rest]
  exact if_pos short

/-- The buffer is filled. -/
theorem addTurn_full {pos : Nat} (some_rest : rest ≠ []) (within : pos ≤ maxSize)
    (full : maxSize - pos ≤ length) (enough : maxSize - pos ≤ rest.length) :
    addTurn maxSize length (rest, ⟨some content, pos, given⟩) =
      .ok (.again (rest.drop (maxSize - pos),
        ⟨some [], 0, given ++ [content ++ rest.take (maxSize - pos)]⟩)) := by
  have chunk : min length (maxSize - pos) = maxSize - pos := min_eq_right full
  have last : pos + (maxSize - pos) = maxSize := by omega
  rw [addTurn, if_neg some_rest]
  dsimp only
  rw [chunk, if_neg (not_lt.2 enough), if_pos last]

/-- All the data fit, and do not fill the buffer. -/
theorem addTurn_part {pos : Nat} (some_data : data ≠ []) (room : pos + data.length < maxSize) :
    addTurn maxSize data.length (data, ⟨some content, pos, given⟩) =
      .ok (.again ([], ⟨some (content ++ data), pos + data.length, given⟩)) := by
  have chunk : min data.length (maxSize - pos) = data.length := min_eq_left (by omega)
  rw [addTurn, if_neg some_data]
  dsimp only
  rw [chunk, if_neg (lt_irrefl _), if_neg room.ne, List.take_length, List.drop_length]

/-! ## The loop from an empty buffer -/

/-- From an empty buffer the loop ends without an exception exactly for data of several lengths of it. -/
theorem addLoop_empty (size_pos : 0 < maxSize) (long : maxSize ≤ length) (rest : Octets)
    (given : List Octets) :
    (maxSize ∣ rest.length → ∃ more : List Octets, more.flatten = rest ∧ ∀ times, rest.length < times →
      turns (addTurn maxSize length) times (rest, ⟨some [], 0, given⟩) =
        .ok ⟨some [], 0, given ++ more⟩) ∧
    (¬maxSize ∣ rest.length → ∀ times result,
      turns (addTurn maxSize length) times (rest, ⟨some [], 0, given⟩) ≠ .ok result) := by
  induction count : rest.length using Nat.strong_induction_on generalizing rest given with
  | _ count ih =>
      subst count
      by_cases nothing : rest = []
      · subst nothing
        refine ⟨fun _ => ⟨[], rfl, fun times enough => ?_⟩, fun absent => absurd (dvd_zero _) absent⟩
        obtain ⟨times, rfl⟩ := Nat.exists_eq_add_of_lt enough
        rw [List.append_nil]
        exact turns_leave (addTurn_nil _)
      · have some_length := List.length_pos_iff.2 nothing
        by_cases short : rest.length < maxSize
        · have stops : addTurn maxSize length (rest, ⟨some [], 0, given⟩) =
              .error (.raised .constraintError) := addTurn_short nothing (by omega)
          refine ⟨fun divides => ?_, fun _ times result => ?_⟩
          · exact absurd (Nat.le_of_dvd some_length divides) (not_le.2 short)
          · cases times with
            | zero => rintro ⟨⟩
            | succ times =>
                rw [turns_stop stops]
                rintro ⟨⟩
        · have enough_left := not_lt.1 short
          have fills := @addTurn_full maxSize length rest [] given 0 nothing (Nat.zero_le _)
            ((Nat.sub_zero _).trans_le long) ((Nat.sub_zero _).trans_le enough_left)
          rw [Nat.sub_zero, List.nil_append] at fills
          have left : (rest.drop maxSize).length = rest.length - maxSize := List.length_drop
          have divides_iff : maxSize ∣ (rest.drop maxSize).length ↔ maxSize ∣ rest.length := by
            rw [left, Nat.dvd_sub_iff_left enough_left dvd_rfl]
          obtain ⟨ends, fails⟩ := ih _ (by omega) (rest.drop maxSize)
            (given ++ [rest.take maxSize]) rfl
          rw [divides_iff] at ends fails
          constructor
          · intro divides
            obtain ⟨more, more_eq, ran⟩ := ends divides
            refine ⟨rest.take maxSize :: more, ?_, fun times enough => ?_⟩
            · rw [List.flatten_cons, more_eq, List.take_append_drop]
            · obtain ⟨times, rfl⟩ : ∃ others, times = others + 1 := ⟨times - 1, by omega⟩
              rw [turns_again fills, ran times (by omega), List.append_assoc,
                List.singleton_append]
          · intro absent times result
            cases times with
            | zero => rintro ⟨⟩
            | succ times =>
                rw [turns_again fills]
                exact fails absent times result

/-- Without room for an octet the loop does not end. -/
theorem addLoop_none (some_rest : rest ≠ []) (given : List Octets) (times : Nat)
    (result : BufferedData) :
    turns (addTurn 0 length) times (rest, ⟨some [], 0, given⟩) ≠ .ok result := by
  induction times generalizing given with
  | zero => rintro ⟨⟩
  | succ times ih =>
      rw [turns_again (addTurn_full some_rest le_rfl (Nat.zero_le _) (Nat.zero_le _))]
      exact ih _

/-! ## Calls -/

/-- The buffer has not been freed, and holds the last octets that have been added. -/
def Holds (pos : Nat) (added : Octets) (buffered : BufferedData) : Prop :=
  ∃ content given, buffered = ⟨some content, pos, given⟩ ∧ content.length = pos ∧
    given.flatten ++ content = added

/-- The buffer has been freed. -/
def Freed (added : Octets) (buffered : BufferedData) : Prop :=
  ∃ given, buffered = ⟨none, 0, given⟩ ∧ given.flatten = added

variable {pos : Nat} {added : Octets} {buffered : BufferedData}

theorem add_nil (buffered : BufferedData) {times : Nat} (enough : 0 < times) :
    buffered.add maxSize times [] = .ok buffered := by
  obtain ⟨times, rfl⟩ := Nat.exists_eq_add_of_lt enough
  exact turns_leave (addTurn_nil buffered)

/-- What fits is added. -/
theorem Holds.add (holds : Holds pos added buffered) (within : pos < maxSize) (some_data : data ≠ [])
    (fits : pos + data.length ≤ maxSize ∨ maxSize ∣ pos + data.length) :
    ∃ after, Holds ((pos + data.length) % maxSize) (added ++ data) after ∧
      ∀ times, data.length + 1 < times → buffered.add maxSize times data = .ok after := by
  obtain ⟨content, given, rfl, length_eq, rfl⟩ := holds
  obtain room | full := Nat.lt_or_ge (pos + data.length) maxSize
  · refine ⟨⟨some (content ++ data), pos + data.length, given⟩,
      ⟨content ++ data, given, ?_, ?_, ?_⟩, fun times enough => ?_⟩
    · rw [Nat.mod_eq_of_lt room]
    · rw [List.length_append, length_eq, Nat.mod_eq_of_lt room]
    · rw [List.append_assoc]
    · obtain ⟨times, rfl⟩ : ∃ others, times = others + 2 := ⟨times - 2, by omega⟩
      rw [BufferedData.add, turns_again (addTurn_part some_data room)]
      exact turns_leave (addTurn_nil _)
  · have divides : maxSize ∣ pos + data.length :=
      fits.elim (fun least => ⟨1, by omega⟩) id
    have first := @addTurn_full maxSize data.length data content given pos some_data within.le
      (by omega) (by omega)
    have left : (data.drop (maxSize - pos)).length = data.length - (maxSize - pos) :=
      List.length_drop
    have total : (data.drop (maxSize - pos)).length + maxSize = pos + data.length := by omega
    obtain nothing | more := Nat.eq_zero_or_pos (data.drop (maxSize - pos)).length
    · refine ⟨⟨some [], 0, given ++ [content ++ data.take (maxSize - pos)]⟩,
        ⟨[], given ++ [content ++ data.take (maxSize - pos)], ?_, ?_, ?_⟩, fun times enough => ?_⟩
      · rw [Nat.mod_eq_zero_of_dvd divides]
      · rw [Nat.mod_eq_zero_of_dvd divides]
        rfl
      · rw [List.take_of_length_le (by omega)]
        simp
      · obtain ⟨times, rfl⟩ : ∃ others, times = others + 2 := ⟨times - 2, by omega⟩
        rw [BufferedData.add, turns_again first, List.length_eq_zero_iff.1 nothing]
        exact turns_leave (addTurn_nil _)
    · have rest_divides : maxSize ∣ (data.drop (maxSize - pos)).length := by
        rw [← total] at divides
        exact (Nat.dvd_add_iff_left dvd_rfl).2 divides
      have long := Nat.le_of_dvd more rest_divides
      obtain ⟨later, later_eq, ran⟩ := (@addLoop_empty maxSize data.length
        (Nat.zero_lt_of_lt within) (by omega) (data.drop (maxSize - pos))
        (given ++ [content ++ data.take (maxSize - pos)])).1 rest_divides
      refine ⟨⟨some [], 0, given ++ [content ++ data.take (maxSize - pos)] ++ later⟩,
        ⟨[], given ++ [content ++ data.take (maxSize - pos)] ++ later, ?_, ?_, ?_⟩,
        fun times enough => ?_⟩
      · rw [Nat.mod_eq_zero_of_dvd divides]
      · rw [Nat.mod_eq_zero_of_dvd divides]
        rfl
      · simp [later_eq]
      · obtain ⟨times, rfl⟩ : ∃ others, times = others + 1 := ⟨times - 1, by omega⟩
        rw [BufferedData.add, turns_again first]
        exact ran times (by omega)

/-- What does not fit is not added. -/
theorem Holds.add_fails (holds : Holds pos added buffered) (within : pos < maxSize ∨ pos = 0)
    (some_data : data ≠ [])
    (unfit : ¬(pos + data.length ≤ maxSize ∨ maxSize ∣ pos + data.length)) (times : Nat)
    (result : BufferedData) : buffered.add maxSize times data ≠ .ok result := by
  obtain ⟨content, given, rfl, length_eq, rfl⟩ := holds
  obtain ⟨large, absent⟩ := not_or.1 unfit
  obtain rfl | size_pos := Nat.eq_zero_or_pos maxSize
  · obtain rfl : pos = 0 := within.elim (fun less => absurd less (Nat.not_lt_zero _)) id
    obtain rfl := List.length_eq_zero_iff.1 length_eq
    exact addLoop_none some_data given times result
  · have before : pos < maxSize := within.elim id fun start => start ▸ size_pos
    have first := @addTurn_full maxSize data.length data content given pos some_data before.le
      (by omega) (by omega)
    have left : (data.drop (maxSize - pos)).length = data.length - (maxSize - pos) :=
      List.length_drop
    have some_rest : data.drop (maxSize - pos) ≠ [] :=
      List.length_pos_iff.1 (by omega)
    cases times with
    | zero => rintro ⟨⟩
    | succ times =>
        rw [BufferedData.add, turns_again first]
        obtain long | short := Nat.lt_or_ge data.length maxSize
        · -- The next chunk is computed from the length of all the data.
          have stops := @addTurn_short maxSize data.length (data.drop (maxSize - pos)) []
            (given ++ [content ++ data.take (maxSize - pos)]) 0 some_rest (by omega)
          cases times with
          | zero => rintro ⟨⟩
          | succ times =>
              rw [turns_stop stops]
              rintro ⟨⟩
        · refine (addLoop_empty size_pos short _ _).2 (fun divides => absent ?_) times result
          have total : pos + data.length = (data.drop (maxSize - pos)).length + maxSize := by omega
          rw [total]
          exact Nat.dvd_add divides dvd_rfl

theorem Freed.add_fails (is_freed : Freed added buffered) (some_data : data ≠ []) (times : Nat)
    (result : BufferedData) : buffered.add maxSize times data ≠ .ok result := by
  obtain ⟨given, rfl, -⟩ := is_freed
  have stops : addTurn maxSize data.length (data, ⟨none, 0, given⟩) =
      .error (.raised .constraintError) := if_neg some_data
  cases times with
  | zero => rintro ⟨⟩
  | succ times =>
      rw [BufferedData.add, turns_stop stops]
      rintro ⟨⟩

/-- Flushing gives to the action what the buffer holds. -/
theorem Holds.flush (holds : Holds pos added buffered) :
    buffered.flush.given.flatten = added ∧
      if pos = 0 then Holds 0 added buffered.flush else Freed added buffered.flush := by
  obtain ⟨content, given, rfl, length_eq, rfl⟩ := holds
  rw [BufferedData.flush]
  dsimp only
  by_cases empty : pos = 0
  · subst empty
    obtain rfl := List.length_eq_zero_iff.1 length_eq
    rw [if_neg (lt_irrefl 0), if_pos rfl]
    exact ⟨(List.append_nil _).symm, [], given, rfl, rfl, rfl⟩
  · have whole : (given ++ [content.take pos]).flatten = given.flatten ++ content := by
      rw [← length_eq, List.take_length, List.flatten_append, List.flatten_singleton]
    rw [if_pos (Nat.pos_of_ne_zero empty), if_neg empty]
    exact ⟨whole, _, rfl, whole⟩

end BufferedData

namespace BufferCall

open BufferedData

variable {maxSize pos : Nat} {freed : Bool} {added : Octets} {buffered : BufferedData}

/-- The buffer holds the last octets that have been added, or has been freed. -/
def Standing (pos : Nat) (freed : Bool) (added : Octets) (buffered : BufferedData) : Prop :=
  if freed = true then pos = 0 ∧ Freed added buffered else Holds pos added buffered

/-- Flushing leaves a buffer that holds nothing, and has been freed if it held something. -/
theorem Standing.flush (standing : Standing pos freed added buffered) :
    buffered.flush.given.flatten = added ∧
      Standing 0 (freed || decide (0 < pos)) added buffered.flush := by
  cases freed with
  | true =>
      obtain ⟨rfl, given, rfl, rfl⟩ := standing
      exact ⟨rfl, rfl, given, rfl, rfl⟩
  | false =>
      have holds : Holds pos added buffered := standing
      obtain ⟨given_eq, after⟩ := holds.flush
      refine ⟨given_eq, ?_⟩
      by_cases empty : pos = 0
      · subst empty
        exact after
      · rw [if_neg empty] at after
        rw [Bool.false_or, decide_eq_true (Nat.pos_of_ne_zero empty)]
        exact ⟨rfl, after⟩

/-- A call that fits is performed, and any other one is not. -/
theorem Standing.add (standing : Standing pos freed added buffered)
    (within : pos < maxSize ∨ pos = 0) (data : Octets) :
    ((data = [] ∨ freed = false ∧ (pos + data.length ≤ maxSize ∨ maxSize ∣ pos + data.length)) →
      ∃ after, Standing ((pos + data.length) % maxSize) freed (added ++ data) after ∧
        ∀ times, data.length + 1 < times → buffered.add maxSize times data = .ok after) ∧
    (¬(data = [] ∨ freed = false ∧ (pos + data.length ≤ maxSize ∨ maxSize ∣ pos + data.length)) →
      ∀ times result, buffered.add maxSize times data ≠ .ok result) := by
  by_cases nothing : data = []
  · subst nothing
    refine ⟨fun _ => ⟨buffered, ?_, fun times enough => add_nil _ (by omega)⟩,
      fun absent => absurd (.inl rfl) absent⟩
    have same : (pos + ([] : Octets).length) % maxSize = pos := by
      rw [List.length_nil, Nat.add_zero]
      obtain less | rfl := within
      · exact Nat.mod_eq_of_lt less
      · exact Nat.zero_mod _
    rwa [same, List.append_nil]
  · rw [or_iff_right nothing]
    cases freed with
    | true =>
        obtain ⟨rfl, is_freed⟩ := standing
        refine ⟨?_, fun _ times result => is_freed.add_fails nothing times result⟩
        rintro ⟨⟨⟩, _⟩
    | false =>
        have holds : Holds pos added buffered := standing
        refine ⟨?_, fun absent times result => holds.add_fails within nothing
          (fun fits => absent ⟨rfl, fits⟩) times result⟩
        rintro ⟨-, fits⟩
        have before : pos < maxSize := by
          obtain less | rfl := within
          · exact less
          · have some_length := List.length_pos_iff.2 nothing
            obtain least | divides := fits
            · omega
            · refine Nat.pos_of_ne_zero fun zero => ?_
              rw [zero, Nat.zero_dvd] at divides
              omega
        exact holds.add before nothing fits

theorem within_add {data : Octets} (within : pos < maxSize ∨ pos = 0)
    (fits : data = [] ∨
      freed = false ∧ (pos + data.length ≤ maxSize ∨ maxSize ∣ pos + data.length)) :
    (pos + data.length) % maxSize < maxSize ∨ (pos + data.length) % maxSize = 0 := by
  obtain rfl | size_pos := Nat.eq_zero_or_pos maxSize
  · rw [Nat.mod_zero]
    refine .inr ?_
    obtain rfl : pos = 0 := within.elim (fun less => absurd less (Nat.not_lt_zero _)) id
    obtain rfl | ⟨-, small | divides⟩ := fits
    · rfl
    · omega
    · exact Nat.zero_dvd.1 divides
  · exact .inl (Nat.mod_lt _ size_pos)

/-- Calls that fit are performed, and give to the action what they add; others are not. -/
theorem run_spec (calls : List BufferCall) (standing : Standing pos freed added buffered)
    (within : pos < maxSize ∨ pos = 0) :
    (Fit maxSize pos freed calls → ∃ least, ∀ times, least < times → ∃ after,
      (calls ++ [flush]).foldlM (perform maxSize times) buffered = .ok after ∧
        after.given.flatten = added ++ calls.flatMap data) ∧
    (¬Fit maxSize pos freed calls → ∀ times result,
      (calls ++ [flush]).foldlM (perform maxSize times) buffered ≠ .ok result) := by
  induction calls generalizing pos freed added buffered with
  | nil =>
      refine ⟨fun _ => ⟨0, fun times _ => ⟨buffered.flush, rfl, ?_⟩⟩,
        fun absent => absurd trivial absent⟩
      rw [standing.flush.1]
      exact (List.append_nil _).symm
  | cons call calls ih =>
      cases call with
      | flush => exact ih standing.flush.2 (.inr rfl)
      | add data =>
          obtain ⟨performs, fails⟩ := standing.add within data
          constructor
          · rintro ⟨fits, later_fit⟩
            obtain ⟨after, after_standing, ran⟩ := performs fits
            obtain ⟨least, later⟩ := (ih after_standing (within_add within fits)).1 later_fit
            refine ⟨max least (data.length + 1), fun times enough => ?_⟩
            obtain ⟨final, later_ran, given_eq⟩ := later times ((le_max_left _ _).trans_lt enough)
            refine ⟨final, ?_, ?_⟩
            · rw [List.cons_append, List.foldlM_cons, perform,
                ran times ((le_max_right _ _).trans_lt enough)]
              exact later_ran
            · rw [given_eq, List.flatMap_cons, List.append_assoc]
              rfl
          · intro unfit times result
            rw [List.cons_append, List.foldlM_cons, perform]
            cases added_eq : buffered.add maxSize times data with
            | error stop => rintro ⟨⟩
            | ok after =>
                by_cases fits :
                    data = [] ∨ freed = false ∧ (pos + data.length ≤ maxSize ∨ maxSize ∣ pos + data.length)
                · have later_unfit := fun later_fit => unfit ⟨fits, later_fit⟩
                  obtain ⟨expected, after_standing, ran⟩ := performs fits
                  have same : after = expected :=
                    turns_result_eq added_eq (ran _ (Nat.lt_succ_self _))
                  rw [← same] at after_standing
                  exact (ih after_standing (within_add within fits)).2 later_unfit times result
                · exact absurd added_eq (fails fits times after)

theorem standing_start : Standing 0 false [] {} := ⟨[], [], rfl, rfl, rfl⟩

theorem not_transparent {calls : List BufferCall} (unfit : ¬Fit maxSize 0 false calls) :
    ¬Transparent maxSize calls := by
  rintro ⟨times, buffered, performed, -⟩
  exact (run_spec calls standing_start (.inr rfl)).2 unfit times buffered performed

/-- The action is given what is added exactly if all calls fit. -/
theorem transparent_iff (maxSize : Nat) (calls : List BufferCall) :
    Transparent maxSize calls ↔ Fit maxSize 0 false calls := by
  refine ⟨not_imp_not.1 not_transparent, fun fits => ?_⟩
  obtain ⟨least, later⟩ := (run_spec calls standing_start (.inr rfl)).1 fits
  obtain ⟨after, performed, given_eq⟩ := later (least + 1) (Nat.lt_succ_self least)
  exact ⟨least + 1, after, performed, given_eq⟩

/-- Five octets do not fit in a buffer of four, and nothing is added after a flush. -/
theorem add_cut :
    ¬Transparent 4 [add [1, 2, 3, 4, 5]] ∧ ¬Transparent 4 [add [1], flush, add [2, 3]] :=
  ⟨not_transparent (by decide), not_transparent (by decide)⟩

end BufferCall

end Utils
end AdaWebServer

import AdaWebServer.Soap.Durations
import AdaWebServer.Soap.TimesRoundTrip

/-!
# Reading what has been written of durations

The parts of an image are read one after the other, and add up to the duration.  The sum of the
clock and of the duration has to be a time of the calendar.
-/

namespace AdaWebServer
namespace Soap
namespace Times

open Calendar (Exists Moment)
open Http2 (Octet Text image text)

/-! ## Literals -/

theorem decimal_append_zeros (digits : Text) (count : Nat) :
    decimal (digits ++ List.replicate count 48) = decimal digits * 10 ^ count := by
  induction count with
  | zero => rw [List.replicate_zero, List.append_nil, pow_zero, Nat.mul_one]
  | succ count induction =>
      rw [List.replicate_succ', ← List.append_assoc, decimal, List.foldl_append,
        ← decimal, induction, List.foldl_cons, List.foldl_nil, Utils.decimalShift, pow_succ]
      change _ * 10 + 0 = _
      rw [Nat.add_zero, Nat.mul_assoc]

theorem decimal_image (number : Nat) : decimal (image number) = number := by
  conv_rhs => rw [← Utils.foldl_image number]
  refine List.foldl_ext _ _ 0 ?_
  intro value digit _
  rw [Utils.decimalShift, Nat.mul_comm]

theorem isDigit_iff {octet : Octet} :
    isDigit octet = true ↔ 48 ≤ octet.toNat ∧ octet.toNat ≤ 57 := by
  rw [isDigit, Bool.and_eq_true, decide_eq_true_eq, decide_eq_true_eq, UInt8.le_iff_toNat_le,
    UInt8.le_iff_toNat_le]
  rfl

theorem isDigit_image {number : Nat} {octet : Octet} (member : octet ∈ image number) :
    isDigit octet = true :=
  isDigit_iff.mpr (Utils.mem_image member)

theorem image_ne_nil (number : Nat) : image number ≠ [] := by
  rw [Utils.image_eq_map]
  exact fun none_there => Nat.toDigits_ne_nil (List.map_eq_nil_iff.mp none_there)

theorem fixedValue_image (number : Nat) :
    fixedValue (image number) = .ok ((number * 10 ^ 9 : Nat) : Int) := by
  have all : ∀ octet ∈ image number, isDigit octet = true := fun octet => isDigit_image
  rw [fixedValue, List.takeWhile_eq_self_iff.mpr all, List.dropWhile_eq_nil_iff.mpr all]
  exact (if_neg (image_ne_nil number)).trans (by rw [decimal_image])

/-- A number with some of the nine digits behind its point. -/
theorem fixedValue_point (number : Nat) {fraction : Text} (digits : fraction.all isDigit = true)
    (short : fraction.length ≤ 9) :
    fixedValue (image number ++ 46 :: fraction) =
      .ok ((number * 10 ^ 9 + decimal fraction * 10 ^ (9 - fraction.length) : Nat) : Int) := by
  have all : ∀ octet ∈ image number, isDigit octet = true := fun octet => isDigit_image
  have point : isDigit 46 = false := by decide
  rw [fixedValue, List.takeWhile_append_of_pos all, List.dropWhile_append_of_pos all,
    List.takeWhile_cons_of_neg (by simp [point]), List.dropWhile_cons_of_neg (by simp [point]),
    List.append_nil]
  refine (if_pos ⟨digits, Or.inl (image_ne_nil number)⟩).trans ?_
  rw [List.take_of_length_le short, decimal_image]

/-! ## Zeros at the end -/

theorem rdropWhile_zeros (digits : Text) : ∃ count,
    digits = digits.rdropWhile (· = 48) ++ List.replicate count 48 := by
  induction digits using List.reverseRecOn with
  | nil => exact ⟨0, rfl⟩
  | append_singleton digits digit induction =>
      rw [List.rdropWhile_concat]
      split_ifs with zero
      · obtain ⟨count, split_digits⟩ := induction
        refine ⟨count + 1, ?_⟩
        rw [List.replicate_succ', ← List.append_assoc, ← split_digits, of_decide_eq_true zero]
      · exact ⟨0, (List.append_nil _).symm⟩

theorem rdropWhile_append {α : Type} (test : α → Bool) (front back : List α) :
    (front ++ back).rdropWhile test =
      if back.rdropWhile test = [] then front.rdropWhile test
      else front ++ back.rdropWhile test := by
  induction back using List.reverseRecOn with
  | nil => rw [List.append_nil, List.rdropWhile_nil, if_pos rfl]
  | append_singleton back last induction =>
      rw [← List.append_assoc, List.rdropWhile_concat, List.rdropWhile_concat]
      split_ifs with dropped none_left
      · rw [induction, if_pos none_left]
      · rw [induction, if_neg none_left]
      · simp at *
      · rw [List.append_assoc]

/-- The decimals that are left. -/
def decimals (value : Nat) : Text := (padded 9 (value % 10 ^ 9)).rdropWhile (· = 48)

theorem trimmed_eq (value : Nat) :
    trimmed (durationImage value) =
      if decimals value = [] then image (value / 10 ^ 9)
      else image (value / 10 ^ 9) ++ 46 :: decimals value := by
  have point : (image (value / 10 ^ 9) ++ [46]).rdropWhile (· = 48) =
    image (value / 10 ^ 9) ++ [46] :=
    List.rdropWhile_concat_neg _ _ _ (by decide)
  have shorter : (durationImage value).rdropWhile (· = 48) =
      if decimals value = [] then image (value / 10 ^ 9) ++ [46]
      else image (value / 10 ^ 9) ++ 46 :: decimals value := by
    rw [durationImage, List.append_cons, rdropWhile_append, point]
    refine if_congr Iff.rfl rfl ?_
    rw [List.append_assoc]
    rfl
  rw [trimmed, shorter]
  by_cases none_left : decimals value = []
  · rw [if_pos none_left, if_pos none_left, List.getLast?_concat, if_pos rfl, List.dropLast_concat]
  · rw [if_neg none_left, if_neg none_left, List.getLast?_append_cons, if_neg]
    intro last
    rw [List.getLast?_cons_of_ne_nil none_left] at last
    have member := List.mem_of_getLast? last
    have digit := decimal_padded _ _ 46 ((List.rdropWhile_prefix _ _).mem member)
    revert digit
    decide

theorem fixedValue_trimmed (value : Nat) :
    fixedValue (trimmed (durationImage value)) = .ok (value : Int) := by
  have bound : value % 10 ^ 9 < 10 ^ 9 := Nat.mod_lt _ (by decide)
  obtain ⟨count, split_digits⟩ := rdropWhile_zeros (padded 9 (value % 10 ^ 9))
  have total : (decimals value).length + count = 9 := by
    have lengths := congrArg List.length split_digits
    rw [length_padded, List.length_append, List.length_replicate] at lengths
    exact lengths.symm
  have behind : decimal (decimals value) * 10 ^ count = value % 10 ^ 9 := by
    rw [← value_padded bound, ← decimal_append_zeros]
    exact congrArg decimal split_digits.symm
  have whole := Nat.div_add_mod' value (10 ^ 9)
  rw [trimmed_eq]
  split_ifs with none_left
  · have nothing : decimal (decimals value) = 0 := by rw [none_left]; rfl
    rw [nothing, Nat.zero_mul] at behind
    rw [fixedValue_image, ← whole, ← behind]
    simp
  · have digits : (decimals value).all isDigit = true := by
      rw [List.all_eq_true]
      intro octet member
      rw [isDigit, Bool.and_eq_true, decide_eq_true_eq, decide_eq_true_eq]
      exact decimal_padded _ _ octet ((List.rdropWhile_prefix _ _).mem member)
    have missing : 9 - (decimals value).length = count := by omega
    rw [fixedValue_point _ digits (by omega), missing, behind, whole]

/-! ## Parts -/

section Parts

variable {parsed parsed' : Parsed} {str literal rest : Text} {key : Octet} {value number : Nat}

theorem durationValue_eq (read : fixedValue literal = .ok (value : Int)) (small : value < 2 ^ 63) :
    durationValue literal = .ok value := by
  rw [durationValue, read, Http2.ok_bind, if_pos (by omega)]
  rfl

theorem readParts_nil : readParts parsed [] = .ok parsed := by
  rw [readParts, if_neg (by simp)]

/-- A literal behind a mark, or behind none. -/
theorem readParts_step (mark : skipMark parsed str = (parsed', literal ++ key :: rest))
    (long : 2 ≤ str.length) (numeric : ∀ octet ∈ literal, isNumeric octet = true)
    (stop : isNumeric key = false) (read : durationValue literal = .ok value) :
    readParts parsed str = (addPart parsed' value key >>= fun parsed => readParts parsed rest) := by
  have found : (skipMark parsed str).2.dropWhile isNumeric = key :: rest := by
    rw [mark, List.dropWhile_append_of_pos numeric, List.dropWhile_cons_of_neg (by simp [stop])]
  have chunk : (skipMark parsed str).2.takeWhile isNumeric = literal := by
    rw [mark, List.takeWhile_append_of_pos numeric, List.takeWhile_cons_of_neg (by simp [stop]),
      List.append_nil]
  rw [readParts, if_pos long]
  split
  case h_1 none_found =>
    rw [found] at none_found
    cases none_found
  case h_2 other_key behind other =>
    rw [found] at other
    obtain ⟨rfl, rfl⟩ := List.cons.inj other
    rw [chunk, read, Http2.ok_bind, mark]

/-- Texts that begin with a part. -/
inductive Begins : Text → Prop where
  | intro {literal rest : Text} {key : Octet} {value : Nat}
      (numeric : ∀ octet ∈ literal, isNumeric octet = true) (some_there : literal ≠ [])
      (stop : isNumeric key = false) (read : durationValue literal = .ok value) :
      Begins (literal ++ key :: rest)

theorem skipMark_plain (numeric : ∀ octet ∈ literal, isNumeric octet = true)
    (some_there : literal ≠ []) :
    skipMark parsed (literal ++ rest) = (parsed, literal ++ rest) := by
  refine if_neg fun mark => ?_
  rw [List.head?_append_of_ne_nil _ some_there] at mark
  have := numeric 84 (List.mem_of_head? mark)
  revert this
  decide

theorem readParts_chunk (numeric : ∀ octet ∈ literal, isNumeric octet = true)
    (some_there : literal ≠ []) (stop : isNumeric key = false)
    (read : durationValue literal = .ok value) :
    readParts parsed (literal ++ key :: rest) =
      (addPart parsed value key >>= fun parsed => readParts parsed rest) := by
  have positive := List.length_pos_iff.mpr some_there
  refine readParts_step (skipMark_plain numeric some_there) ?_ numeric stop read
  rw [List.length_append, List.length_cons]
  omega

theorem readParts_mark (begins : Begins rest) :
    readParts parsed (84 :: rest) = readParts { parsed with timeMode := true } rest := by
  obtain ⟨numeric, some_there, stop, read⟩ := begins
  rw [readParts_chunk numeric some_there stop read]
  refine readParts_step rfl ?_ numeric stop read
  rw [List.length_cons, List.length_append, List.length_cons]
  omega

theorem isNumeric_of_isDigit {octet : Octet} (digit : isDigit octet = true) :
    isNumeric octet = true := by
  rw [isNumeric, digit, Bool.true_or]

theorem numeric_image (number : Nat) : ∀ octet ∈ image number, isNumeric octet = true :=
  fun _ member => isNumeric_of_isDigit (isDigit_image member)

theorem numeric_trimmed (value : Nat) :
    ∀ octet ∈ trimmed (durationImage value), isNumeric octet = true := by
  intro octet member
  rw [trimmed_eq] at member
  split_ifs at member with none_left
  · exact numeric_image _ octet member
  · obtain whole | fraction := List.mem_append.mp member
    · exact numeric_image _ octet whole
    · obtain rfl | digit := List.mem_cons.mp fraction
      · decide
      · refine isNumeric_of_isDigit ?_
        rw [isDigit, Bool.and_eq_true, decide_eq_true_eq, decide_eq_true_eq]
        exact decimal_padded _ _ octet ((List.rdropWhile_prefix _ _).mem digit)

theorem trimmed_ne_nil (value : Nat) : trimmed (durationImage value) ≠ [] := by
  rw [trimmed_eq]
  split_ifs
  · exact image_ne_nil _
  · exact List.append_ne_nil_of_left_ne_nil (image_ne_nil _) _

theorem begins_part (stop : isNumeric key = false) (small : number * 10 ^ 9 < 2 ^ 63)
    (positive : 0 < number) : Begins (part number key ++ rest) := by
  rw [part, if_pos positive, List.append_assoc]
  exact .intro (numeric_image number) (image_ne_nil number) stop
    (durationValue_eq (fixedValue_image number) small)

theorem begins_durationPart (stop : isNumeric key = false) (small : value < 2 ^ 63)
    (positive : 0 < value) : Begins (durationPart value key ++ rest) := by
  rw [durationPart, if_neg (by omega), List.append_assoc]
  exact .intro (numeric_trimmed value) (trimmed_ne_nil value) stop
    (durationValue_eq (fixedValue_trimmed value) small)

theorem readParts_part (stop : isNumeric key = false) (small : number * 10 ^ 9 < 2 ^ 63)
    (nothing : addPart parsed 0 key = .ok parsed) :
    readParts parsed (part number key ++ rest) =
      (addPart parsed (number * 10 ^ 9) key >>= fun parsed => readParts parsed rest) := by
  rw [part]
  split_ifs with positive
  · rw [List.append_assoc]
    exact readParts_chunk (numeric_image number) (image_ne_nil number) stop
      (durationValue_eq (fixedValue_image number) small)
  · rw [Nat.eq_zero_of_not_pos positive, Nat.zero_mul, nothing]
    rfl

theorem readParts_durationPart (stop : isNumeric key = false) (small : value < 2 ^ 63)
    (nothing : addPart parsed 0 key = .ok parsed) :
    readParts parsed (durationPart value key ++ rest) =
      (addPart parsed value key >>= fun parsed => readParts parsed rest) := by
  rw [durationPart]
  split_ifs with zero
  · rw [zero, nothing]
    rfl
  · rw [List.append_assoc]
    exact readParts_chunk (numeric_trimmed value) (trimmed_ne_nil value) stop
      (durationValue_eq (fixedValue_trimmed value) small)

end Parts

/-! ## The whole image -/

section Whole

variable {parsed : Parsed} {rest : Text} {host : Host} {span : Span} {d : Text} {nDay seconds : Nat}

theorem addSeconds_eq {amount : Nat} (fits : parsed.seconds + amount < 2 ^ 63) :
    addSeconds parsed amount = .ok { parsed with seconds := parsed.seconds + amount } :=
  if_pos ⟨by omega, fits⟩

theorem addSeconds_zero (fits : parsed.seconds < 2 ^ 63) : addSeconds parsed 0 = .ok parsed :=
  addSeconds_eq fits

/-- The hours, the minutes and the seconds. -/
def timeParts (h i ss : Nat) : Text := part h 72 ++ (part i 77 ++ durationPart ss 83)

theorem addPart_hours (value : Nat) :
    addPart parsed value 72 = addSeconds parsed (value * 3600) := rfl

theorem addPart_minutes (mode : parsed.timeMode = true) (value : Nat) :
    addPart parsed value 77 = addSeconds parsed (value * 60) := by
  rw [addPart, if_neg (by decide), if_pos rfl, if_pos mode]

theorem addPart_seconds (value : Nat) : addPart parsed value 83 = addSeconds parsed value := rfl

/-- A part that counts seconds. -/
theorem readParts_seconds {number factor : Nat} {key : Octet} (stop : isNumeric key = false)
    (adds : ∀ value, addPart parsed value key = addSeconds parsed (value * factor))
    (positive : 0 < factor) (fits : parsed.seconds + number * 10 ^ 9 * factor < 2 ^ 63) :
    readParts parsed (part number key ++ rest) =
      readParts { parsed with seconds := parsed.seconds + number * 10 ^ 9 * factor } rest := by
  have nothing : addPart parsed 0 key = .ok parsed := by
    rw [adds, Nat.zero_mul]
    exact addSeconds_zero (Nat.lt_of_le_of_lt (Nat.le_add_right _ _) fits)
  have small : number * 10 ^ 9 < 2 ^ 63 :=
    Nat.lt_of_le_of_lt ((Nat.le_mul_of_pos_right _ positive).trans (Nat.le_add_left _ _)) fits
  rw [readParts_part stop small nothing, adds, addSeconds_eq fits, Http2.ok_bind]

theorem readParts_lastSeconds {ss : Nat} (fits : parsed.seconds + ss < 2 ^ 63) :
    readParts parsed (durationPart ss 83) = .ok { parsed with seconds := parsed.seconds + ss } := by
  have nothing : addPart parsed 0 83 = .ok parsed :=
    addSeconds_zero (Nat.lt_of_le_of_lt (Nat.le_add_right _ _) fits)
  rw [← List.append_nil (durationPart ss 83), readParts_durationPart (by decide)
    (Nat.lt_of_le_of_lt (Nat.le_add_left _ _) fits) nothing, addPart_seconds, addSeconds_eq fits,
    Http2.ok_bind, readParts_nil]

theorem readParts_timeParts {h i ss : Nat} (mode : parsed.timeMode = true)
    (fits : parsed.seconds + h * 10 ^ 9 * 3600 + i * 10 ^ 9 * 60 + ss < 2 ^ 63) :
    readParts parsed (timeParts h i ss) =
      .ok { parsed with seconds := parsed.seconds + h * 10 ^ 9 * 3600 + i * 10 ^ 9 * 60 + ss } := by
  have behind_minutes := Nat.lt_of_le_of_lt (Nat.le_add_right _ ss) fits
  have behind_hours := Nat.lt_of_le_of_lt (Nat.le_add_right _ (i * 10 ^ 9 * 60)) behind_minutes
  rw [timeParts, readParts_seconds (by decide) addPart_hours (by decide) behind_hours,
    @readParts_seconds { parsed with seconds := parsed.seconds + h * 10 ^ 9 * 3600 } _ _ _ _
      (by decide) (addPart_minutes mode) (by decide) behind_minutes,
    @readParts_lastSeconds { parsed with
      seconds := parsed.seconds + h * 10 ^ 9 * 3600 + i * 10 ^ 9 * 60 } _ fits]

theorem begins_timeParts {h i ss : Nat} (some_there : 0 < h + i ∨ 0 < ss)
    (fits : h * 10 ^ 9 + i * 10 ^ 9 + ss < 2 ^ 63) : Begins (timeParts h i ss) := by
  rw [timeParts]
  obtain zero | positive := Nat.eq_zero_or_pos h
  · rw [part, if_neg (by omega), List.nil_append]
    obtain zero' | positive := Nat.eq_zero_or_pos i
    · rw [part, if_neg (by omega), List.nil_append, ← List.append_nil (durationPart ss 83)]
      exact begins_durationPart (by decide) (Nat.lt_of_le_of_lt (by omega) fits) (by omega)
    · exact begins_part (by decide) (Nat.lt_of_le_of_lt (by omega) fits) positive
  · exact begins_part (by decide) (Nat.lt_of_le_of_lt (by omega) fits) positive

/-- The mark changes nothing but the mode. -/
theorem readParts_time {h i ss : Nat} (nothing : parsed.seconds = 0)
    (fits : h * 10 ^ 9 * 3600 + i * 10 ^ 9 * 60 + ss < 2 ^ 63) :
    ∃ mode, readParts parsed ((if 0 < h + i ∨ 0 < ss then text "T" else []) ++ timeParts h i ss) =
      .ok { parsed with seconds := h * 10 ^ 9 * 3600 + i * 10 ^ 9 * 60 + ss, timeMode := mode } := by
  have sum : h * 10 ^ 9 * 3600 + i * 10 ^ 9 * 60 + ss =
      parsed.seconds + h * 10 ^ 9 * 3600 + i * 10 ^ 9 * 60 + ss := by rw [nothing, Nat.zero_add]
  split_ifs with some_there
  · have mark : text "T" = [84] := by decide +kernel
    refine ⟨true, ?_⟩
    rw [mark, List.singleton_append,
      readParts_mark (begins_timeParts some_there (Nat.lt_of_le_of_lt (by omega) fits)), sum]
    exact readParts_timeParts rfl (sum ▸ fits)
  · obtain ⟨hours, seconds⟩ := not_or.mp some_there
    refine ⟨parsed.timeMode, ?_⟩
    have none_there : timeParts h i ss = [] := by
      rw [timeParts, part, if_neg (by omega), part, if_neg (by omega), durationPart,
        if_pos (by omega)]
      rfl
    have zero : h * 10 ^ 9 * 3600 + i * 10 ^ 9 * 60 + ss = parsed.seconds := by
      have none_of_h : h = 0 := by omega
      have none_of_i : i = 0 := by omega
      rw [none_of_h, none_of_i, nothing, Nat.zero_mul, Nat.zero_mul, Nat.zero_add]
      exact Nat.eq_zero_of_not_pos seconds
    rw [none_there, List.append_nil, readParts_nil, zero]

/-- What the reader makes of the parts. -/
theorem readDuration_iff (some_there : d ≠ [])
    (parts : ∀ year month, ∃ mode, readParts ⟨year, month, 0, 0, false⟩
      (d.drop (if d.head? = some 45 then 2 else 1)) = .ok ⟨year, month, nDay, seconds, mode⟩)
    (small : nDay * (24 * (60 * (60 * 10 ^ 9))) + seconds < 2 ^ 63)
    (value : span.value = if d.head? = some 45
      then -((nDay * (24 * (60 * (60 * 10 ^ 9))) + seconds : Nat) : Int)
      else ((nDay * (24 * (60 * (60 * 10 ^ 9))) + seconds : Nat) : Int)) :
    readDuration host d = .ok span ↔ Local host.zone host.clock ∧
      host.clock + ((nDay * (24 * (60 * (60 * 10 ^ 9))) + seconds : Nat) : Int) ≤ latest := by
  by_cases there : Local host.zone host.clock
  · obtain ⟨mode, read⟩ := parts (wallClock host.zone host.clock).year
      (wallClock host.zone host.clock).month
    have clock : timeOfDay host.zone (wallClock host.zone host.clock).year
        (wallClock host.zone host.clock).month (wallClock host.zone host.clock).day
        (wallClock host.zone host.clock).inDay = .ok host.clock := by
      have instant := Moment.instant_eq (wallClock host.zone host.clock)
      have local_time := instant_wallClock there.1
      rw [timeOfDay, if_pos (wallClock host.zone host.clock).date_exists]
      dsimp only
      rw [← instant, local_time, Int.add_sub_cancel]
    rw [readDuration, if_neg some_there, splitTime, if_pos there]
    dsimp only
    simp only [Http2.ok_bind, Http2.pure_eq_ok, decide_eq_true_eq]
    rw [read, Http2.ok_bind, clock, Http2.ok_bind]
    have early := host.early
    have days_eq : (nDay : Int) * (24 * (60 * minute)) =
        ((nDay * (24 * (60 * (60 * 10 ^ 9))) : Nat) : Int) := by
      rw [Nat.cast_mul]
      rfl
    dsimp only
    rw [days_eq]
    generalize nDay * (24 * (60 * (60 * 10 ^ 9))) = days at small value ⊢
    by_cases fits : host.clock + ((days + seconds : Nat) : Int) ≤ latest
    · have result : toSpan .timeError (host.clock + (days : Int) + (seconds : Int) - host.clock) =
          .ok ⟨((days + seconds : Nat) : Int), by omega, by exact_mod_cast small⟩ := by
        have sum : host.clock + (days : Int) + (seconds : Int) - host.clock =
            ((days + seconds : Nat) : Int) := by
          push_cast
          omega
        rw [toSpan, dif_pos (by rw [sum]; omega)]
        exact congrArg Except.ok (by simp only [sum])
      refine iff_of_true ?_ ⟨there, fits⟩
      rw [checkBounds, if_pos (by omega), Http2.ok_bind, checkBounds,
        if_pos (by omega), Http2.ok_bind,
        result, Http2.ok_bind]
      cases span
      dsimp only at value
      split_ifs at value ⊢ with negative
      · rw [toSpan, dif_pos (by dsimp only; omega)]
        exact congrArg Except.ok (by simp only [value])
      · exact congrArg Except.ok (by simp only [value])
    · refine iff_of_false ?_ fun inside => fits inside.2
      have beyond : checkBounds (host.clock + (days : Int) + (seconds : Int)) = .error .timeError :=
        if_neg (by push_cast at fits; omega)
      by_cases within : earliest ≤ host.clock + (days : Int) ∧ host.clock + (days : Int) ≤ latest
      · rw [checkBounds, if_pos within, Http2.ok_bind, beyond, Http2.error_bind]
        rintro ⟨⟩
      · rw [checkBounds, if_neg within, Http2.error_bind]
        rintro ⟨⟩
  · refine iff_of_false ?_ fun inside => there inside.1
    rw [readDuration, if_neg some_there, splitTime, if_neg there]
    rintro ⟨⟩

/-- The parts of a duration without its sign, and the seconds that stand behind the days. -/
def partsOf (total : Nat) : Text :=
  part (total / 10 ^ 9 / 60 / 60 / 24) 68 ++
    ((if 0 < total / 10 ^ 9 / 60 / 60 % 24 + total / 10 ^ 9 / 60 % 60 ∨
        0 < total / 10 ^ 9 % 60 * 10 ^ 9 + total % 10 ^ 9 then text "T" else []) ++
      timeParts (total / 10 ^ 9 / 60 / 60 % 24) (total / 10 ^ 9 / 60 % 60)
        (total / 10 ^ 9 % 60 * 10 ^ 9 + total % 10 ^ 9))

def secondsOf (total : Nat) : Nat :=
  total / 10 ^ 9 / 60 / 60 % 24 * 10 ^ 9 * 3600 + total / 10 ^ 9 / 60 % 60 * 10 ^ 9 * 60 +
    (total / 10 ^ 9 % 60 * 10 ^ 9 + total % 10 ^ 9)

theorem days_add_secondsOf (total : Nat) :
    total / 10 ^ 9 / 60 / 60 / 24 * (24 * (60 * (60 * 10 ^ 9))) + secondsOf total = total := by
  rw [secondsOf]
  omega

/-- The image of a duration that is not zero. -/
theorem imageDuration_eq (nonzero : span.value ≠ 0) (above : span.value ≠ -2 ^ 63) :
    imageDuration span =
      .ok ((if span.value < 0 then text "-" else []) ++ 80 :: partsOf span.value.natAbs) := by
  rw [imageDuration, if_neg nonzero, if_neg above]
  rfl

theorem addPart_days {value : Nat} (few : value ≤ 366 * (1 + 2399 - 1901)) :
    addPart parsed (value * 10 ^ 9) 68 = .ok { parsed with nDay := value } := by
  have rounded : (value * 10 ^ 9 + 5 * 10 ^ 8) / 10 ^ 9 = value := by omega
  rw [addPart, if_neg (by decide), if_neg (by decide), if_pos rfl, toWhole, rounded, if_pos few]
  rfl

theorem readParts_partsOf {total : Nat} (small : total < 2 ^ 63) (year month : Nat) :
    ∃ mode, readParts ⟨year, month, 0, 0, false⟩ (partsOf total) =
      .ok ⟨year, month, total / 10 ^ 9 / 60 / 60 / 24, secondsOf total, mode⟩ := by
  have few : total / 10 ^ 9 / 60 / 60 / 24 ≤ 366 * (1 + 2399 - 1901) := by omega
  obtain ⟨mode, read⟩ := @readParts_time ⟨year, month, total / 10 ^ 9 / 60 / 60 / 24, 0, false⟩
    (total / 10 ^ 9 / 60 / 60 % 24) (total / 10 ^ 9 / 60 % 60)
    (total / 10 ^ 9 % 60 * 10 ^ 9 + total % 10 ^ 9) rfl (Nat.lt_of_le_of_lt (by omega) small)
  refine ⟨mode, ?_⟩
  rw [partsOf, readParts_part (by decide) (by omega) (addPart_days (Nat.zero_le _)),
    addPart_days few, Http2.ok_bind, read, secondsOf]

theorem readDuration_image (above : span.value ≠ -2 ^ 63) :
    ∃ image, imageDuration span = .ok image ∧ (readDuration host image = .ok span ↔
      Local host.zone host.clock ∧ host.clock + (span.value.natAbs : Int) ≤ latest) := by
  have small : span.value.natAbs < 2 ^ 63 := by
    have := span.low
    have := span.high
    omega
  obtain zero | nonzero := eq_or_ne span.value 0
  · have nothing : text "P0D" = 80 :: (image 0 ++ [68]) := by decide +kernel
    have read (year month : Nat) : readParts ⟨year, month, 0, 0, false⟩ (image 0 ++ [68]) =
        .ok ⟨year, month, 0, 0, false⟩ := by
      rw [readParts_chunk (numeric_image 0) (image_ne_nil 0) (by decide)
        (durationValue_eq (fixedValue_image 0) (by decide)), addPart_days (Nat.zero_le _),
        Http2.ok_bind, readParts_nil]
    refine ⟨_, if_pos zero, ?_⟩
    rw [nothing, zero]
    exact @readDuration_iff host span _ 0 0 (List.cons_ne_nil _ _)
      (fun year month => ⟨false, read year month⟩) (by decide) zero
  · have parts := @readParts_partsOf span.value.natAbs small
    have total := days_add_secondsOf span.value.natAbs
    have minus : text "-" = [45] := by decide +kernel
    refine ⟨_, imageDuration_eq nonzero above, ?_⟩
    conv_rhs => rw [← total]
    rw [← total] at small
    split_ifs with negative
    · rw [minus]
      refine readDuration_iff (List.cons_ne_nil _ _) parts small ?_
      rw [total]
      refine Eq.trans ?_ (if_pos rfl).symm
      omega
    · refine readDuration_iff (List.cons_ne_nil _ _) parts small ?_
      rw [total]
      have plain : (80 :: partsOf span.value.natAbs).head? ≠ some 45 := by
        rw [List.head?_cons]
        decide
      refine Eq.trans ?_ (if_neg plain).symm
      omega

/-- A duration is read back where it can be added to the clock. -/
theorem duration_roundTrip_iff :
    (∃ image, imageDuration span = .ok image ∧ readDuration host image = .ok span) ↔
      span.value ≠ -2 ^ 63 ∧ Local host.zone host.clock ∧
        host.clock + (span.value.natAbs : Int) ≤ latest := by
  obtain least | above := eq_or_ne span.value (-2 ^ 63)
  · refine iff_of_false ?_ fun inside => inside.1 least
    rintro ⟨image, written, -⟩
    rw [imageDuration, if_neg (by omega), if_pos least] at written
    cases written
  · obtain ⟨image, written, read⟩ := @readDuration_image host span above
    constructor
    · rintro ⟨_, other, returned⟩
      obtain rfl := Except.ok.inj (written.symm.trans other)
      exact ⟨above, read.mp returned⟩
    · rintro ⟨-, inside⟩
      exact ⟨image, written, read.mpr inside⟩

end Whole

/-! ## Values -/

/-- The values of the four types. -/
inductive Value where
  | instant (time : Int)
  | date (time : Int)
  | timeOfDay (time : Int)
  | duration (span : Span)

/-- The image of a value is made and read, and what is read is the same: the instant and the time
of the day to the millisecond, the date of the local calendar, and the duration. -/
def RoundTrips (host : Host) : Value → Prop
  | .instant time =>
      ∃ image back, imageInstant host.zone time = .ok image ∧ readInstant image = .ok back ∧
        back / 10 ^ 6 = time / 10 ^ 6
  | .date time =>
      ∃ image back, imageDate host.zone time = .ok image ∧ readDate image = .ok back ∧
        (wallClock host.zone back).date = (wallClock host.zone time).date
  | .timeOfDay time =>
      ∃ image back, imageTime host.zone time = .ok image ∧ readTime image = .ok back ∧
        SameTime (wallClock host.zone back) (wallClock host.zone time)
  | .duration span =>
      ∃ image, imageDuration span = .ok image ∧ readDuration host image = .ok span

/-- A local year from 1901 to 2399; for a date, a local time that is less than a day ahead of UTC;
for a duration, an absolute value and a sum with the clock that are inside their ranges. -/
def InRange (host : Host) : Value → Prop
  | .instant time => Local host.zone time
  | .date time => Local host.zone time ∧ 0 ≤ host.zone.offset ∧ host.zone.offset < 1440
  | .timeOfDay time => Local host.zone time
  | .duration span =>
      span.value ≠ -2 ^ 63 ∧ Local host.zone host.clock ∧
        host.clock + (span.value.natAbs : Int) ≤ latest

theorem roundTrips_iff_inRange (host : Host) (value : Value) :
    RoundTrips host value ↔ InRange host value := by
  cases value with
  | instant time =>
      refine ⟨fun trip => ?_, instant_roundTrip host.zone time⟩
      by_contra away
      obtain ⟨image, _, written, -⟩ := trip
      rw [(image_raises away).1] at written
      cases written
  | date time => exact date_roundTrip_iff host.zone time
  | timeOfDay time =>
      refine ⟨fun trip => ?_, time_roundTrip host.zone time⟩
      by_contra away
      obtain ⟨image, _, written, -⟩ := trip
      rw [(image_raises away).2.2] at written
      cases written
  | duration span => exact duration_roundTrip_iff

/-- Five hours behind UTC, and noon on a day there. -/
def behindUtc : Zone := ⟨-300, by decide, by decide⟩

def noon : Moment (10 ^ 9) where
  year := 2024
  month := 5
  day := 10
  hour := 12
  minute := 0
  second := 0
  tick := 0
  year_pos := Calendar.year_in_range
  date_exists := by decide
  hour_lt := Calendar.noon_in_day
  minute_lt := Calendar.full_hour
  second_lt := Calendar.full_hour
  tick_lt := Calendar.nanoseconds_pos

/-- The tenth of May is read back as the ninth. -/
theorem date_behindUtc :
    (wallClock behindUtc (noon.instant + 300 * minute)).date = (2024, 5, 10) ∧
      imageDate behindUtc (noon.instant + 300 * minute) = .ok (text "2024-05-10") ∧
      (∃ back, readDate (text "2024-05-10") = .ok back ∧
        (wallClock behindUtc back).date = (2024, 5, 9)) ∧
      ∃ host, ¬RoundTrips host (.date (noon.instant + 300 * minute)) := by
  have clock : wallClock behindUtc (noon.instant + 300 * minute) = noon :=
    wallClock_of_instant (by change _ + _ + -300 * minute = _; omega)
  have there : Local behindUtc (noon.instant + 300 * minute) := by
    refine ⟨?_, ?_⟩
    · change 0 ≤ (noon.instant : Int) + 300 * minute + -300 * minute
      omega
    · rw [clock]
      decide
  have picture : datePicture noon = text "2024-05-10" := by decide +kernel
  let evening : Moment (10 ^ 9) := { noon with
    day := 9
    hour := 19
    date_exists := by decide
    hour_lt := by decide }
  have read := readDate_image noon (by decide) (by decide)
  have before : wallClock behindUtc (noon.midnight (by decide)).instant = evening :=
    wallClock_of_instant (by decide +kernel)
  have early : earliest ≤ (noon.instant : Int) + 300 * minute := by decide +kernel
  have late : (noon.instant : Int) + 300 * minute ≤ latest := by decide +kernel
  refine ⟨congrArg Moment.date clock, ?_, ⟨_, picture ▸ read, congrArg Moment.date before⟩, ?_⟩
  · rw [imageDate_eq there, clock, picture]
  · refine ⟨⟨behindUtc, noon.instant + 300 * minute, early, late⟩, fun trip => ?_⟩
    have ahead := ((date_roundTrip_iff behindUtc _).mp trip).2.1
    revert ahead
    decide

end Times
end Soap
end AdaWebServer

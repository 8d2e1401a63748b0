import AdaWebServer.Foundations.Loops
import AdaWebServer.Utils.Utf8

/-!
# Well-formed UTF-8 in strings

`Is_Valid_UTF8` examines the octets of memory from the first one of a string up to an index.  For an
unbounded string this is its length, and for a string its last index.
-/

namespace AdaWebServer
namespace Utils

open Http2 (Octet Octets Exn naturalLast)

/-- Well-formed UTF-8: the encodings of some characters, one after another. -/
def WellFormed (octets : Octets) : Prop :=
  ∃ chars : List Char, chars.flatMap String.utf8EncodeChar = octets

/-- The octets can be continued to well-formed UTF-8. -/
def Begins (octets : Octets) : Prop := ∃ more, WellFormed (octets ++ more)

/-- A string with its bounds.  Those of a null string may be any ones in the wrong order. -/
structure AdaString where
  first : Int
  last : Int
  octets : Octets
  length_eq : (octets.length : Int) = max 0 (last - first + 1)
  positive : octets ≠ [] → 1 ≤ first
  last_le : last ≤ naturalLast

/-- An unbounded string. -/
abbrev UnboundedString := { octets : Octets // octets.length ≤ naturalLast }

/-! ## The loop -/

/-- `Read_C`, for the index `C` and the result `Res`. -/
def readC (str : Nat → Octet) (last : Nat) (state : Nat × Bool) (range : Range) : Nat × Bool :=
  if state.2 = true ∧ state.1 < last ∧ range.Contains (str (state.1 + 1)) then
    (state.1 + 1, true)
  else (state.1, false)

/-- A turn of the loop of `Is_Valid_UTF8`, for the variables `C` and `R`.  The index is a `Positive`. -/
def validTurn (str : Nat → Octet) (last : Nat) (state : Nat × Bool) :
    Trial Exn (Turn (Nat × Bool) Bool) :=
  if state.2 = true ∧ state.1 ≤ last then
    match followers (str state.1) with
    | none => .ok (.leave false)
    | some ranges =>
        let read := ranges.foldl (readC str last) state
        if read.1 = naturalLast then .error (.raised .constraintError)
        else .ok (.again (read.1 + 1, read.2))
  else .ok (.leave state.2)

/-- `Is_Valid_UTF8` for the octets of memory from index 1 on. -/
def isValidUtf8Last (str : Nat → Octet) (last : Nat) : Trial Exn Bool :=
  turns (validTurn str last) (last + 1) (1, true)

/-- The memory from the first of some octets on.  Its first index is 1. -/
def memory (octets : Octets) (behind : Nat → Octet) (index : Nat) : Octet :=
  octets.getD (index - 1) (behind (index - 1 - octets.length))

/-- `Is_Valid_UTF8` for an unbounded string.  The memory behind it is given, but is not examined. -/
def isValidUtf8Unbounded (value : UnboundedString) (behind : Nat → Octet) : Trial Exn Bool :=
  isValidUtf8Last (memory value.val behind) value.val.length

/-- `Is_Valid_UTF8` for a string.  The parameter `Last` is a `Natural`. -/
def isValidUtf8String (value : AdaString) (behind : Nat → Octet) : Trial Exn Bool :=
  if value.last < 0 then .error (.raised .constraintError)
  else isValidUtf8Last (memory value.octets behind) value.last.toNat

/-- The octets behind a string up to its last index, counted from the first octet of the string. -/
def AdaString.excess (value : AdaString) (behind : Nat → Octet) : Octets :=
  (List.range (value.last.toNat - value.octets.length)).map behind

/-- The answer is whether the octets are well-formed. -/
def Judges (octets : Octets) (answer : Trial Exn Bool) : Prop :=
  ∃ valid, answer = .ok valid ∧ (valid = true ↔ WellFormed octets)

/-! ## What is accepted is well-formed -/

private theorem exists_char {n : Nat} (scalar : n < 0xD800 ∨ 0xDFFF < n ∧ n < 0x110000) :
    ∃ c : Char, c.val.toNat = n := by
  have small : n < 2 ^ 32 := by omega
  have same : (UInt32.ofNat n).toNat = n := by
    rw [UInt32.toNat_ofNat', Nat.mod_eq_of_lt small]
  refine ⟨⟨UInt32.ofNat n, ?_⟩, same⟩
  rw [UInt32.isValidChar, same]
  exact scalar

private theorem octet_eq {n : Nat} {c : Octet} (equal : c.toNat = n) : UInt8.ofNat n = c := by
  rw [← equal, UInt8.ofNat_toNat]

theorem mem_iff_toNat {range : Range} {c : Octet} :
    range.Contains c ↔ range.1.toNat ≤ c.toNat ∧ c.toNat ≤ range.2.toNat := by
  rw [Range.Contains, UInt8.le_iff_toNat_le, UInt8.le_iff_toNat_le]

private theorem encoded_one {a : Octet} (one : cp1.Contains a) :
    ∃ c : Char, String.utf8EncodeChar c = [a] := by
  obtain ⟨-, within⟩ := mem_iff_toNat.1 one
  have within : a.toNat ≤ 0x7F := within
  obtain ⟨c, value⟩ := @exists_char a.toNat (by omega)
  refine ⟨c, ?_⟩
  simp only [String.utf8EncodeChar, value]
  rw [if_pos within, octet_eq rfl]

private theorem encoded_two {a b : Octet} (two : cp2.Contains a) (second : continuation.Contains b) :
    ∃ c : Char, String.utf8EncodeChar c = [a, b] := by
  have first : 0xC2 ≤ a.toNat ∧ a.toNat ≤ 0xDF := mem_iff_toNat.1 two
  have second : 0x80 ≤ b.toNat ∧ b.toNat ≤ 0xBF := mem_iff_toNat.1 second
  obtain ⟨c, value⟩ := @exists_char ((a.toNat - 0xC0) * 64 + (b.toNat - 0x80)) (by omega)
  refine ⟨c, ?_⟩
  simp only [String.utf8EncodeChar, value]
  rw [if_neg (by omega), if_pos (by omega), octet_eq (c := a) (by omega),
    octet_eq (c := b) (by omega)]

/-- A sequence of three octets. -/
private theorem encoded_three {a b d : Octet} {range : Range} (three : cp3.Contains a)
    (ranges : readS3 a = [range, continuation]) (second : range.Contains b)
    (third : continuation.Contains d) : ∃ c : Char, String.utf8EncodeChar c = [a, b, d] := by
  have first : 0xE0 ≤ a.toNat ∧ a.toNat ≤ 0xEF := mem_iff_toNat.1 three
  have third : 0x80 ≤ d.toNat ∧ d.toNat ≤ 0xBF := mem_iff_toNat.1 third
  have e0 : a = 0xE0 ↔ a.toNat = 0xE0 := UInt8.toNat_inj.symm
  have ed : a = 0xED ↔ a.toNat = 0xED := UInt8.toNat_inj.symm
  have second : 0x80 ≤ b.toNat ∧ b.toNat ≤ 0xBF ∧ (a.toNat = 0xE0 → 0xA0 ≤ b.toNat) ∧
      (a.toNat = 0xED → b.toNat ≤ 0x9F) := by
    obtain ⟨rfl, -⟩ := List.cons.inj ranges
    simp only [mem_iff_toNat, e0, ed] at second
    split_ifs at second with is_e0 is_ed
    · have second : 0xA0 ≤ b.toNat ∧ b.toNat ≤ 0xBF := second
      omega
    · have second : 0x80 ≤ b.toNat ∧ b.toNat ≤ 0x9F := second
      omega
    · have second : 0x80 ≤ b.toNat ∧ b.toNat ≤ 0xBF := second
      omega
  obtain ⟨c, value⟩ := @exists_char
    ((a.toNat - 0xE0) * 4096 + (b.toNat - 0x80) * 64 + (d.toNat - 0x80)) (by omega)
  refine ⟨c, ?_⟩
  simp only [String.utf8EncodeChar, value]
  rw [if_neg (by omega), if_neg (by omega), if_pos (by omega), octet_eq (c := a) (by omega),
    octet_eq (c := b) (by omega), octet_eq (c := d) (by omega)]

/-- A sequence of four octets. -/
private theorem encoded_four {a b d e : Octet} {range : Range} (four : cp4.Contains a)
    (ranges : readS4 a = [range, continuation, continuation]) (second : range.Contains b)
    (third : continuation.Contains d) (fourth : continuation.Contains e) :
    ∃ c : Char, String.utf8EncodeChar c = [a, b, d, e] := by
  have first : 0xF0 ≤ a.toNat ∧ a.toNat ≤ 0xF4 := mem_iff_toNat.1 four
  have third : 0x80 ≤ d.toNat ∧ d.toNat ≤ 0xBF := mem_iff_toNat.1 third
  have fourth : 0x80 ≤ e.toNat ∧ e.toNat ≤ 0xBF := mem_iff_toNat.1 fourth
  have f0 : a = 0xF0 ↔ a.toNat = 0xF0 := UInt8.toNat_inj.symm
  have f4 : a = 0xF4 ↔ a.toNat = 0xF4 := UInt8.toNat_inj.symm
  have second : 0x80 ≤ b.toNat ∧ b.toNat ≤ 0xBF ∧ (a.toNat = 0xF0 → 0x90 ≤ b.toNat) ∧
      (a.toNat = 0xF4 → b.toNat ≤ 0x8F) := by
    obtain ⟨rfl, -⟩ := List.cons.inj ranges
    simp only [mem_iff_toNat, f0, f4] at second
    split_ifs at second with is_f0 is_f4
    · have second : 0x90 ≤ b.toNat ∧ b.toNat ≤ 0xBF := second
      omega
    · have second : 0x80 ≤ b.toNat ∧ b.toNat ≤ 0x8F := second
      omega
    · have second : 0x80 ≤ b.toNat ∧ b.toNat ≤ 0xBF := second
      omega
  obtain ⟨c, value⟩ := @exists_char ((a.toNat - 0xF0) * 262144 + (b.toNat - 0x80) * 4096 +
    (d.toNat - 0x80) * 64 + (e.toNat - 0x80)) (by omega)
  refine ⟨c, ?_⟩
  simp only [String.utf8EncodeChar, value]
  rw [if_neg (by omega), if_neg (by omega), if_neg (by omega), octet_eq (c := a) (by omega),
    octet_eq (c := b) (by omega), octet_eq (c := d) (by omega), octet_eq (c := e) (by omega)]

/-- Octets in the ranges, one for each. -/
def InRanges (ranges : List Range) (octets : Octets) : Prop :=
  List.Forall₂ Range.Contains ranges octets

/-- A first octet with octets in the ranges that follow it is the encoding of a character. -/
theorem encoded_of_followers {a : Octet} {ranges : List Range} {octets : Octets}
    (found : followers a = some ranges) (in_ranges : InRanges ranges octets) :
    ∃ c : Char, String.utf8EncodeChar c = a :: octets := by
  rw [followers] at found
  split_ifs at found with one two three four
  · cases found
    cases in_ranges
    exact encoded_one one
  · cases found
    obtain _ | ⟨second, nothing⟩ := in_ranges
    cases nothing
    exact encoded_two two second
  · cases found
    obtain _ | ⟨second, later⟩ := in_ranges
    obtain _ | ⟨third, nothing⟩ := later
    cases nothing
    exact encoded_three three rfl second third
  · cases found
    obtain _ | ⟨second, later⟩ := in_ranges
    obtain _ | ⟨third, later⟩ := later
    obtain _ | ⟨fourth, nothing⟩ := later
    cases nothing
    exact encoded_four four rfl second third fourth

/-- What is accepted within a sequence ends the sequence, and goes on with accepted octets. -/
theorem exists_of_accepted {ranges : List Range} {octets : Octets}
    (accepted : isValidUtf8From ranges octets = true) :
    ∃ sequence rest, octets = sequence ++ rest ∧ InRanges ranges sequence ∧
      isValidUtf8From [] rest = true := by
  induction ranges generalizing octets with
  | nil => exact ⟨[], octets, rfl, .nil, accepted⟩
  | cons range ranges ih =>
      cases octets with
      | nil => cases accepted
      | cons c octets =>
          rw [isValidUtf8From] at accepted
          split_ifs at accepted with contained
          obtain ⟨sequence, rest, rfl, in_ranges, later⟩ := ih accepted
          exact ⟨c :: sequence, rest, rfl, .cons contained in_ranges, later⟩

theorem wellFormed_nil : WellFormed [] :=
  ⟨[], rfl⟩

theorem isValidUtf8From_flatMap (chars : List Char) (rest : Octets) :
    isValidUtf8From [] (chars.flatMap String.utf8EncodeChar ++ rest) = isValidUtf8From [] rest := by
  induction chars with
  | nil => rfl
  | cons c chars ih => rw [List.flatMap_cons, List.append_assoc, isValidUtf8From_utf8EncodeChar, ih]

theorem isValidUtf8_iff {octets : Octets} : isValidUtf8From [] octets = true ↔ WellFormed octets := by
  constructor
  · intro accepted
    induction count : octets.length using Nat.strong_induction_on generalizing octets with
    | _ count ih =>
        subst count
        cases octets with
        | nil => exact wellFormed_nil
        | cons a octets =>
            rw [isValidUtf8From] at accepted
            cases found : followers a with
            | none =>
                rw [found] at accepted
                cases accepted
            | some ranges =>
                rw [found] at accepted
                obtain ⟨sequence, rest, rfl, in_ranges, later⟩ := exists_of_accepted accepted
                obtain ⟨c, encoded⟩ := encoded_of_followers found in_ranges
                have fewer : rest.length < (a :: (sequence ++ rest)).length := by
                  rw [List.length_cons, List.length_append]
                  omega
                obtain ⟨chars, rfl⟩ := ih _ fewer later rfl
                exact ⟨c :: chars, by rw [List.flatMap_cons, encoded, List.cons_append]⟩
  · rintro ⟨chars, rfl⟩
    exact isValidUtf8_utf8Encode chars

theorem WellFormed.append_iff {octets rest : Octets} (formed : WellFormed octets) :
    WellFormed (octets ++ rest) ↔ WellFormed rest := by
  obtain ⟨chars, rfl⟩ := formed
  rw [← isValidUtf8_iff, isValidUtf8From_flatMap, isValidUtf8_iff]

/-! ## What can be continued -/

/-- The octets can be continued to octets that are accepted. -/
def Continues (ranges : List Range) (octets : Octets) : Prop :=
  ∃ more, isValidUtf8From ranges (octets ++ more) = true

theorem begins_iff {octets : Octets} : Begins octets ↔ Continues [] octets :=
  exists_congr fun _ => isValidUtf8_iff.symm

/-- Every range has an octet in it. -/
def Inhabited (ranges : List Range) : Prop := ∀ range ∈ ranges, range.1 ≤ range.2

theorem inhabited_followers {a : Octet} {ranges : List Range} (found : followers a = some ranges) :
    Inhabited ranges := by
  rw [followers] at found
  split_ifs at found <;> cases found <;> rw [Inhabited] <;>
    simp only [readS2, readS3, readS4, List.forall_mem_cons, List.not_mem_nil, false_implies,
      implies_true, and_true]
  · decide
  · split_ifs <;> decide
  · split_ifs <;> decide

theorem continues_nil {ranges : List Range} (inhabited : Inhabited ranges) : Continues ranges [] := by
  induction ranges with
  | nil => exact ⟨[], rfl⟩
  | cons range ranges ih =>
      obtain ⟨least, inhabited⟩ := List.forall_mem_cons.1 inhabited
      obtain ⟨more, accepted⟩ := ih inhabited
      refine ⟨range.1 :: more, ?_⟩
      rw [List.nil_append, isValidUtf8From_cons ⟨UInt8.le_refl _, least⟩]
      exact accepted

theorem continues_cons {range : Range} {ranges : List Range} {c : Octet} {octets : Octets} :
    Continues (range :: ranges) (c :: octets) ↔ range.Contains c ∧ Continues ranges octets := by
  by_cases contained : range.Contains c
  · rw [and_iff_right contained]
    refine exists_congr fun more => ?_
    rw [List.cons_append, isValidUtf8From_cons contained]
  · simp [Continues, isValidUtf8From, contained]

theorem continues_first {ranges : List Range} {c : Octet} {octets : Octets}
    (found : followers c = some ranges) :
    Continues [] (c :: octets) ↔ Continues ranges octets := by
  exact exists_congr fun more => by rw [List.cons_append, isValidUtf8From_first found]

theorem not_continues {c : Octet} {octets : Octets} (found : followers c = none) :
    ¬Continues [] (c :: octets) := by
  simp [Continues, isValidUtf8From, found]

/-! ## Reading memory -/

variable {str : Nat → Octet} {last c times : Nat}

/-- The octets of memory from an index up to the last one. -/
def upTo (str : Nat → Octet) (last c : Nat) : Octets := (List.range' c (last + 1 - c)).map str

theorem upTo_cons (within : c ≤ last) : upTo str last c = str c :: upTo str last (c + 1) := by
  have count : last + 1 - c = last + 1 - (c + 1) + 1 := by omega
  rw [upTo, count, List.range'_succ, List.map_cons]
  rfl

theorem upTo_nil (beyond : last < c) : upTo str last c = [] := by
  rw [upTo, Nat.sub_eq_zero_of_le beyond]
  rfl

theorem readC_failed {ranges : List Range} :
    ranges.foldl (readC str last) (c, false) = (c, false) := by
  induction ranges with
  | nil => rfl
  | cons range ranges ih => exact ih

/-- What reading the ranges of a sequence leaves.  If it fails without an octet out of its range, the
octets have ended. -/
def HasRead (str : Nat → Octet) (last c : Nat) (ranges : List Range) (read : Nat × Bool) : Prop :=
  c ≤ read.1 ∧ read.1 ≤ last ∧
    if read.2 = true then
      (isValidUtf8From ranges (upTo str last (c + 1)) = isValidUtf8From [] (upTo str last (read.1 + 1)) ∧
        (Continues ranges (upTo str last (c + 1)) ↔ Continues [] (upTo str last (read.1 + 1))))
    else
      (isValidUtf8From ranges (upTo str last (c + 1)) = false ∧
        (Continues ranges (upTo str last (c + 1)) ↔ read.1 = last))

theorem hasRead {ranges : List Range} (inhabited : Inhabited ranges) (within : c ≤ last) :
    HasRead str last c ranges (ranges.foldl (readC str last) (c, true)) := by
  induction ranges generalizing c with
  | nil => exact ⟨le_rfl, within, rfl, Iff.rfl⟩
  | cons range ranges ih =>
      obtain ⟨-, later⟩ := List.forall_mem_cons.1 inhabited
      rw [List.foldl_cons]
      obtain before | rfl := Nat.lt_or_eq_of_le within
      · have octets_eq := @upTo_cons str last (c + 1) before
        by_cases contained : range.Contains (str (c + 1))
        · have next : c + 1 ≤ last := before
          obtain ⟨after, bounded, outcome⟩ := ih later next
          have read : readC str last (c, true) range = (c + 1, true) :=
            if_pos ⟨rfl, before, contained⟩
          rw [read]
          refine ⟨by omega, bounded, ?_⟩
          rw [octets_eq, isValidUtf8From_cons contained, continues_cons, and_iff_right contained]
          exact outcome
        · rw [readC, if_neg fun holds => contained holds.2.2, readC_failed]
          refine ⟨le_rfl, within, ?_⟩
          rw [octets_eq, continues_cons, isValidUtf8From, if_neg contained, if_neg (by rintro ⟨⟩)]
          exact ⟨rfl, fun holds => absurd holds.1 contained, fun equal => absurd equal before.ne⟩
      · rw [readC, if_neg fun holds => lt_irrefl _ holds.2.1, readC_failed]
        refine ⟨le_rfl, within, ?_⟩
        rw [upTo_nil (Nat.lt_succ_self c), if_neg (by rintro ⟨⟩)]
        exact ⟨rfl, fun _ => rfl, fun _ => continues_nil inhabited⟩

/-- The answer for the octets from an index on.  It is an exception if they end at the largest index and
can be continued. -/
def Answers (last : Nat) (octets : Octets) (answer : Trial Exn Bool) : Prop :=
  (last = naturalLast ∧ Continues [] octets → answer = .error (.raised .constraintError)) ∧
    (¬(last = naturalLast ∧ Continues [] octets) → answer = .ok (isValidUtf8From [] octets))

/-- The loop answers for what it has not examined. -/
theorem answers_turns (within : c ≤ last) (bounded : last ≤ naturalLast)
    (enough : last + 1 < times + c) :
    Answers last (upTo str last c) (turns (validTurn str last) times (c, true)) := by
  induction times generalizing c with
  | zero => omega
  | succ times ih =>
      rw [upTo_cons within]
      cases found : followers (str c) with
      | none =>
          have turn : validTurn str last (c, true) = .ok (.leave false) := by
            rw [validTurn, if_pos ⟨rfl, within⟩, found]
          rw [turns_leave turn]
          refine ⟨fun holds => absurd holds.2 (not_continues found), fun _ => ?_⟩
          rw [isValidUtf8From, found]
      | some ranges =>
          obtain ⟨after, before, outcome⟩ :=
            @hasRead str last c ranges (inhabited_followers found) within
          have turn : validTurn str last (c, true) =
              if (ranges.foldl (readC str last) (c, true)).1 = naturalLast then
                .error (.raised .constraintError)
              else .ok (.again ((ranges.foldl (readC str last) (c, true)).1 + 1,
                (ranges.foldl (readC str last) (c, true)).2)) := by
            rw [validTurn, if_pos ⟨rfl, within⟩, found]
          rw [Answers, continues_first found, isValidUtf8From_first found]
          generalize ranges.foldl (readC str last) (c, true) = read at after before outcome turn
          obtain ⟨read, succeeded⟩ := read
          dsimp only at after before outcome turn
          by_cases largest : read = naturalLast
          · -- The octets end here, and the index cannot be increased.
            obtain rfl : read = last := by omega
            have continues : Continues ranges (upTo str read (c + 1)) := by
              cases succeeded with
              | true =>
                  rw [upTo_nil (Nat.lt_succ_self read)] at outcome
                  exact outcome.2.2 (continues_nil (List.forall_mem_nil _))
              | false => exact outcome.2.2 rfl
            rw [if_pos largest] at turn
            rw [turns_stop turn]
            exact ⟨fun _ => rfl, fun absent => absurd ⟨largest, continues⟩ absent⟩
          · rw [if_neg largest] at turn
            rw [turns_again turn]
            cases succeeded with
            | true =>
                obtain ⟨accepted_eq, continues_iff⟩ := outcome
                rw [accepted_eq, continues_iff]
                by_cases more : read + 1 ≤ last
                · exact ih more (by omega)
                · rw [upTo_nil (Nat.not_le.1 more)]
                  obtain ⟨times, rfl⟩ : ∃ others, times = others + 1 := ⟨times - 1, by omega⟩
                  have left : validTurn str last (read + 1, true) = .ok (.leave true) := by
                    rw [validTurn, if_neg fun holds => more holds.2]
                  rw [turns_leave left]
                  exact ⟨fun holds => absurd (holds.1 ▸ (by omega : read = last)) largest, fun _ => rfl⟩
            | false =>
                obtain ⟨accepted_eq, continues_iff⟩ := outcome
                rw [accepted_eq, continues_iff]
                obtain ⟨times, rfl⟩ : ∃ others, times = others + 1 := ⟨times - 1, by omega⟩
                have left : validTurn str last (read + 1, false) = .ok (.leave false) := by
                  rw [validTurn, if_neg (by rintro ⟨⟨⟩, _⟩)]
                rw [turns_leave left]
                exact ⟨fun holds => absurd (holds.2.trans holds.1) largest, fun _ => rfl⟩

/-- `Is_Valid_UTF8` answers for the octets up to the last one. -/
theorem answers_isValidUtf8Last (bounded : last ≤ naturalLast) :
    Answers last (upTo str last 1) (isValidUtf8Last str last) := by
  obtain rfl | some_octets := Nat.eq_zero_or_pos last
  · exact ⟨fun holds => absurd holds.1 (by decide), fun _ => rfl⟩
  · exact answers_turns some_octets bounded (Nat.lt_succ_self _)

theorem judges_iff {octets examined : Octets} {answer : Trial Exn Bool}
    (answers : Answers last examined answer) :
    Judges octets answer ↔
      ¬(last = naturalLast ∧ Begins examined) ∧ (WellFormed octets ↔ WellFormed examined) := by
  rw [begins_iff]
  by_cases raised : last = naturalLast ∧ Continues [] examined
  · rw [answers.1 raised]
    simp [Judges, raised]
  · rw [answers.2 raised, and_iff_right raised, ← @isValidUtf8_iff examined]
    constructor
    · rintro ⟨valid, ⟨⟩, valid_iff⟩
      exact valid_iff.symm
    · exact fun same => ⟨_, rfl, same.symm⟩

/-- The memory up to an index behind the octets. -/
theorem upTo_memory {octets : Octets} {behind : Nat → Octet} (within : octets.length ≤ last) :
    upTo (memory octets behind) last 1 =
      octets ++ (List.range (last - octets.length)).map behind := by
  refine List.ext_getElem ?_ fun index below _ => ?_
  · simp [upTo, within]
  · simp only [upTo, List.getElem_map, List.getElem_range', memory, Nat.one_mul,
      Nat.add_sub_cancel_left]
    by_cases held : index < octets.length
    · rw [List.getElem_append_left held, List.getD_eq_getElem?_getD, List.getElem?_eq_getElem held]
      rfl
    · have beyond := Nat.not_lt.1 held
      rw [List.getElem_append_right beyond, List.getD_eq_getElem?_getD,
        List.getElem?_eq_none beyond]
      simp

/-! ## The two versions -/

/-- Where the two versions of `Is_Valid_UTF8` answer whether their octets are well-formed.  The octets of
memory that follow a string up to its last index must be well-formed exactly if the string is, and no
string that can be continued may reach the largest index. -/
theorem isValidUtf8_judges_iff (value : AdaString) (text : UnboundedString)
    (behind : Nat → Octet) :
    (Judges value.octets (isValidUtf8String value behind) ↔
      0 ≤ value.last ∧
        ¬(value.last = naturalLast ∧ Begins (value.octets ++ value.excess behind)) ∧
        (WellFormed value.octets → WellFormed (value.excess behind)) ∧
        (¬WellFormed value.octets → ¬WellFormed (value.octets ++ value.excess behind))) ∧
    (Judges text.val (isValidUtf8Unbounded text behind) ↔
      ¬(text.val.length = naturalLast ∧ Begins text.val)) := by
  constructor
  · rw [isValidUtf8String]
    split_ifs with negative
    · refine iff_of_false ?_ fun holds => absurd holds.1 (not_le.2 negative)
      rintro ⟨valid, ⟨⟩, -⟩
    · have natural : 0 ≤ value.last := not_lt.1 negative
      rw [and_iff_right natural]
      obtain ⟨last, last_eq⟩ := Int.eq_ofNat_of_zero_le natural
      have bounded : last ≤ naturalLast := by
        have := value.last_le
        omega
      have within : value.octets.length ≤ last := by
        have length_eq := value.length_eq
        by_cases nothing : value.octets = []
        · rw [nothing]
          exact Nat.zero_le _
        · have := value.positive nothing
          omega
      have examined : value.octets ++ value.excess behind =
          upTo (memory value.octets behind) last 1 := by
        rw [upTo_memory within, AdaString.excess, last_eq]
        rfl
      rw [last_eq, Int.toNat_natCast, judges_iff (answers_isValidUtf8Last bounded), ← examined,
        Nat.cast_inj]
      refine and_congr_right fun _ => ?_
      by_cases formed : WellFormed value.octets
      · simp [formed, formed.append_iff]
      · simp [formed]
  · rw [isValidUtf8Unbounded, judges_iff (answers_isValidUtf8Last text.property),
      upTo_memory le_rfl, Nat.sub_self, List.range_zero, List.map_nil, List.append_nil,
      and_iff_left Iff.rfl]

/-- A slice from index 2 on, of one octet, with an octet behind it that begins no sequence. -/
def sliced : AdaString where
  first := 2
  last := 2
  octets := [0x41]
  length_eq := rfl
  positive _ := by decide
  last_le := by decide

/-- The octet behind the slice is examined, and the slice is not accepted. -/
theorem isValidUtf8_slice :
    isValidUtf8String sliced (fun _ => 0xFF) = .ok false ∧ WellFormed sliced.octets ∧
      ¬Judges sliced.octets (isValidUtf8String sliced fun _ => 0xFF) := by
  have answer : isValidUtf8String sliced (fun _ => 0xFF) = .ok false := by decide +kernel
  have formed : WellFormed sliced.octets := ⟨['A'], by decide +kernel⟩
  refine ⟨answer, formed, ?_⟩
  rintro ⟨valid, returned, valid_iff⟩
  rw [answer] at returned
  cases returned
  exact absurd (valid_iff.2 formed) (by decide)

end Utils
end AdaWebServer

import AdaWebServer.Http2.Basic

/-!
# Well-formed UTF-8

`Is_Valid_UTF8` reads the characters of a string one sequence at a time.  The first octet of a
sequence determines the ranges in which the octets after it must lie.
-/

namespace AdaWebServer
namespace Utils

open Http2 (Octet Octets)

/-- A range of octets, `R_From .. R_Last`. -/
abbrev Range := Octet × Octet

/-- The octet is in the range. -/
def Range.Contains (range : Range) (octet : Octet) : Prop := range.1 ≤ octet ∧ octet ≤ range.2

instance (range : Range) (octet : Octet) : Decidable (range.Contains octet) :=
  inferInstanceAs (Decidable (_ ∧ _))

/-- The octets that continue a sequence. -/
def continuation : Range := (0x80, 0xBF)

/-- The ranges read by `Read_S2`. -/
def readS2 : List Range := [continuation]

/-- The ranges read by `Read_S3` after the first octet. -/
def readS3 (c : Octet) : List Range :=
  [if c = 0xE0 then (0xA0, 0xBF) else if c = 0xED then (0x80, 0x9F) else continuation,
    continuation]

/-- The ranges read by `Read_S4` after the first octet. -/
def readS4 (c : Octet) : List Range :=
  [if c = 0xF0 then (0x90, 0xBF) else if c = 0xF4 then (0x80, 0x8F) else continuation,
    continuation, continuation]

/-- The first octets of the sequences of one octet. -/
def cp1 : Range := (0x00, 0x7F)

/-- The first octets of the sequences of two octets. -/
def cp2 : Range := (0xC2, 0xDF)

/-- The first octets of the sequences of three octets. -/
def cp3 : Range := (0xE0, 0xEF)

/-- The first octets of the sequences of four octets. -/
def cp4 : Range := (0xF0, 0xF4)

/-- The ranges that are read after the first octet of a sequence. -/
def followers (c : Octet) : Option (List Range) :=
  if cp1.Contains c then some []
  else if cp2.Contains c then some readS2
  else if cp3.Contains c then some (readS3 c)
  else if cp4.Contains c then some (readS4 c)
  else none

/-- The loop of `Is_Valid_UTF8`, within a sequence as long as there are ranges left to read. -/
def isValidUtf8From : List Range → Octets → Bool
  | [], [] => true
  | _ :: _, [] => false
  | range :: ranges, c :: rest =>
      if range.Contains c then isValidUtf8From ranges rest else false
  | [], c :: rest =>
      match followers c with
      | some ranges => isValidUtf8From ranges rest
      | none => false

/-- `Is_Valid_UTF8`. -/
def isValidUtf8 (value : Octets) : Bool := isValidUtf8From [] value

/-! ## Encoded characters are accepted -/

theorem isValidUtf8From_cons {range : Range} {ranges : List Range} {c : Octet} {rest : Octets}
    (contained : range.Contains c) :
    isValidUtf8From (range :: ranges) (c :: rest) = isValidUtf8From ranges rest :=
  if_pos contained

theorem isValidUtf8From_first {ranges : List Range} {c : Octet} {rest : Octets}
    (found : followers c = some ranges) :
    isValidUtf8From [] (c :: rest) = isValidUtf8From ranges rest := by
  rw [isValidUtf8From, found]

private theorem contains_iff {range : Range} {n : Nat} (small : n < 256) :
    range.Contains (UInt8.ofNat n) ↔ range.1.toNat ≤ n ∧ n ≤ range.2.toNat := by
  rw [Range.Contains, UInt8.le_iff_toNat_le, UInt8.le_iff_toNat_le, UInt8.toNat_ofNat',
    Nat.mod_eq_of_lt small]

private theorem ofNat_eq_iff {n : Nat} {c : Octet} (small : n < 256) :
    UInt8.ofNat n = c ↔ n = c.toNat := by
  rw [← UInt8.toNat_inj, UInt8.toNat_ofNat', Nat.mod_eq_of_lt small]

private theorem continuation_contains (n : Nat) :
    continuation.Contains (UInt8.ofNat (n % 0x40 + 0x80)) := by
  have within : 0x80 ≤ n % 0x40 + 0x80 ∧ n % 0x40 + 0x80 ≤ 0xBF := by omega
  exact (contains_iff (by omega)).mpr within

private theorem followers_one {n : Nat} (large : n ≤ 0x7F) : followers (UInt8.ofNat n) = some [] :=
  if_pos ((contains_iff (by omega)).mpr ⟨Nat.zero_le n, large⟩)

private theorem followers_two {n : Nat} (small : 0xC2 ≤ n) (large : n ≤ 0xDF) :
    followers (UInt8.ofNat n) = some readS2 := by
  have one : ¬cp1.Contains (UInt8.ofNat n) := fun contained =>
    absurd ((contains_iff (by omega)).mp contained).2 (Nat.not_le.mpr (by simp [cp1]; omega))
  rw [followers, if_neg one, if_pos ((contains_iff (by omega)).mpr ⟨small, large⟩)]

private theorem followers_three {n : Nat} (small : 0xE0 ≤ n) (large : n ≤ 0xEF) :
    followers (UInt8.ofNat n) = some (readS3 (UInt8.ofNat n)) := by
  have one : ¬cp1.Contains (UInt8.ofNat n) := fun contained =>
    absurd ((contains_iff (by omega)).mp contained).2 (Nat.not_le.mpr (by simp [cp1]; omega))
  have two : ¬cp2.Contains (UInt8.ofNat n) := fun contained =>
    absurd ((contains_iff (by omega)).mp contained).2 (Nat.not_le.mpr (by simp [cp2]; omega))
  rw [followers, if_neg one, if_neg two, if_pos ((contains_iff (by omega)).mpr ⟨small, large⟩)]

private theorem followers_four {n : Nat} (small : 0xF0 ≤ n) (large : n ≤ 0xF4) :
    followers (UInt8.ofNat n) = some (readS4 (UInt8.ofNat n)) := by
  have one : ¬cp1.Contains (UInt8.ofNat n) := fun contained =>
    absurd ((contains_iff (by omega)).mp contained).2 (Nat.not_le.mpr (by simp [cp1]; omega))
  have two : ¬cp2.Contains (UInt8.ofNat n) := fun contained =>
    absurd ((contains_iff (by omega)).mp contained).2 (Nat.not_le.mpr (by simp [cp2]; omega))
  have three : ¬cp3.Contains (UInt8.ofNat n) := fun contained =>
    absurd ((contains_iff (by omega)).mp contained).2 (Nat.not_le.mpr (by simp [cp3]; omega))
  rw [followers, if_neg one, if_neg two, if_neg three,
    if_pos ((contains_iff (by omega)).mpr ⟨small, large⟩)]

/-- The second octet of a sequence of three is in its range unless the sequence is overlong or the
code point is a surrogate. -/
private theorem readS3_contains (first second : Nat) (large : first ≤ 0xEF) (within : second < 0x40)
    (shortest : first = 0xE0 → 0x20 ≤ second) (scalar : first = 0xED → second < 0x20) :
    ∃ range, readS3 (UInt8.ofNat first) = [range, continuation] ∧
      range.Contains (UInt8.ofNat (second + 0x80)) := by
  refine ⟨_, rfl, (contains_iff (by omega)).mpr ?_⟩
  have e0 : UInt8.ofNat first = 0xE0 ↔ first = 0xE0 := ofNat_eq_iff (by omega)
  have ed : UInt8.ofNat first = 0xED ↔ first = 0xED := ofNat_eq_iff (by omega)
  simp only [e0, ed]
  split_ifs with is_e0 is_ed <;> simp [continuation] <;> omega

/-- The second octet of a sequence of four is in its range unless the sequence is overlong or the
code point too large. -/
private theorem readS4_contains (first second : Nat) (large : first ≤ 0xF4) (within : second < 0x40)
    (shortest : first = 0xF0 → 0x10 ≤ second) (bounded : first = 0xF4 → second < 0x10) :
    ∃ range, readS4 (UInt8.ofNat first) = [range, continuation, continuation] ∧
      range.Contains (UInt8.ofNat (second + 0x80)) := by
  refine ⟨_, rfl, (contains_iff (by omega)).mpr ?_⟩
  have f0 : UInt8.ofNat first = 0xF0 ↔ first = 0xF0 := ofNat_eq_iff (by omega)
  have f4 : UInt8.ofNat first = 0xF4 ↔ first = 0xF4 := ofNat_eq_iff (by omega)
  simp only [f0, f4]
  split_ifs with is_f0 is_f4 <;> simp [continuation] <;> omega

theorem isValidUtf8From_utf8EncodeChar (c : Char) (rest : Octets) :
    isValidUtf8From [] (String.utf8EncodeChar c ++ rest) = isValidUtf8From [] rest := by
  have scalar : c.val.toNat < 0xD800 ∨ 0xDFFF < c.val.toNat ∧ c.val.toNat < 0x110000 := c.valid
  simp only [String.utf8EncodeChar]
  split_ifs with one two three
  · rw [List.singleton_append, isValidUtf8From_first (followers_one one)]
  · rw [List.cons_append, isValidUtf8From_first (followers_two (by omega) (by omega)), readS2,
      List.singleton_append, isValidUtf8From_cons (continuation_contains _)]
  · obtain ⟨range, ranges, second⟩ := readS3_contains
      (c.val.toNat / 4096 % 0x10 + 0xE0) (c.val.toNat / 64 % 0x40)
      (by omega) (by omega) (by omega) (by omega)
    rw [List.cons_append, isValidUtf8From_first (followers_three (by omega) (by omega)), ranges,
      List.cons_append, isValidUtf8From_cons second, List.singleton_append,
      isValidUtf8From_cons (continuation_contains _)]
  · obtain ⟨range, ranges, second⟩ := readS4_contains
      (c.val.toNat / 262144 % 0x08 + 0xF0) (c.val.toNat / 4096 % 0x40)
      (by omega) (by omega) (by omega) (by omega)
    rw [List.cons_append, isValidUtf8From_first (followers_four (by omega) (by omega)), ranges,
      List.cons_append, isValidUtf8From_cons second, List.cons_append,
      isValidUtf8From_cons (continuation_contains _), List.singleton_append,
      isValidUtf8From_cons (continuation_contains _)]

/-- `Is_Valid_UTF8` accepts every encoded string. -/
theorem isValidUtf8_utf8Encode (chars : List Char) :
    isValidUtf8 (chars.flatMap String.utf8EncodeChar) = true := by
  induction chars with
  | nil => rfl
  | cons c chars ih =>
      rw [isValidUtf8, List.flatMap_cons, isValidUtf8From_utf8EncodeChar]
      exact ih

end Utils
end AdaWebServer

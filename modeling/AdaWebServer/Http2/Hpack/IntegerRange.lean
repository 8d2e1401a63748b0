import AdaWebServer.Http2.Hpack.Literals

/-!
# Range of the integer codec

`Send_Integer` takes a `Positive`, so that the length of an empty string cannot be sent.
`Get_Integer` adds modulo `2 ^ 32` and never looks whether the integer fits; its shift count is a
`Natural` that a long run of continuation octets takes out of range.
-/

namespace AdaWebServer
namespace Http2
namespace Hpack

/-- `Int_Bit`, the number of low-order bits of an octet that start an integer. -/
abbrev IntBit := { n : Nat // 1 ≤ n ∧ n ≤ 7 }

/-- The codec gives `i` back: octets are sent for it, and before whatever follows them they are
read as `i` and consumed to the last one. -/
def Returned (n : IntBit) (flags : Octet) (i : Nat) : Prop :=
  ∃ byte tail, Encode.sendInteger i flags n = .ok (byte :: tail) ∧
    ∀ fault rest, Decode.getInteger fault n byte (tail ++ rest) = .ok (i, rest)

/-- `Protocol_Error` is raised. -/
def IsProtocolError {α : Type} (outcome : Except Exn α) : Prop :=
  ∃ error message, outcome = raiseProtocolError error message

/-- The octets are read as the integer that they encode when this fits into 32 bits and refused
otherwise; where they end inside the integer, so does the reading. -/
def ReadExactly (n : IntBit) (byte : Octet) (rest : Octets) : Prop :=
  ∀ fault, match PrefixInteger.read n byte rest with
    | some (number, behind) =>
        if number < 2 ^ 32 then
          Decode.getInteger fault n byte rest = .ok (number, behind)
        else
          IsProtocolError (Decode.getInteger fault n byte rest)
    | none => Decode.getInteger fault n byte rest = Decode.endOfOctets fault

/-- The integer that the octets encode, when they encode one, fits into 32 bits. -/
def Fits (n : IntBit) (byte : Octet) (rest : Octets) : Prop :=
  ∀ number behind, PrefixInteger.read n byte rest = some (number, behind) → number < 2 ^ 32

private theorem not_isProtocolError_constraintError {α : Type} :
    ¬ IsProtocolError (.error .constraintError : Except Exn α) := by
  rintro ⟨error, message, equation⟩
  cases equation

private theorem not_isProtocolError_ok {α : Type} (value : α) :
    ¬ IsProtocolError (.ok value : Except Exn α) := by
  rintro ⟨error, message, equation⟩
  cases equation

/-- `Send_Integer` and `Get_Integer` agree on every integer but zero. -/
theorem returned_iff {n : IntBit} {flags : Octet} {i : Nat} (clear : Clear flags n)
    (small : i ≤ naturalLast) : Returned n flags i ↔ i ≠ 0 := by
  constructor
  · rintro ⟨byte, tail, sent, _⟩ rfl
    exact absurd (sendInteger_bounds sent).1 (by decide)
  · intro nonzero
    obtain ⟨octets, sent, spec⟩ := sendInteger_spec clear (Nat.pos_of_ne_zero nonzero) small
    obtain ⟨byte, tail, rfl, _, _, reads⟩ := spec.starts
    exact ⟨byte, tail, sent, reads⟩

theorem not_readExactly_of_overflow {n : IntBit} {byte : Octet} {rest : Octets}
    (overflow : ShiftOverflow n byte rest) : ¬ ReadExactly n byte rest := by
  intro exactly
  -- a stream that ends without an exception tells the end of octets from `Constraint_Error`
  have outcome := exactly none
  rw [getInteger_overflow overflow] at outcome
  split at outcome
  · split at outcome
    · cases outcome
    · exact not_isProtocolError_constraintError outcome
  · cases outcome

theorem readExactly_iff_fits {n : IntBit} {byte : Octet} {rest : Octets}
    (within : ¬ ShiftOverflow n byte rest) : ReadExactly n byte rest ↔ Fits n byte rest := by
  have narrow : (n : Nat) ≤ 8 := n.2.2.trans (by decide)
  constructor
  · intro exactly number behind encoded
    have outcome := exactly none
    rw [getInteger_eq narrow within, encoded] at outcome
    by_contra large
    simp only [if_neg large] at outcome
    exact not_isProtocolError_ok _ outcome
  · intro fits fault
    rw [getInteger_eq narrow within]
    cases encoded : PrefixInteger.read n byte rest with
    | none => rfl
    | some result =>
        obtain ⟨number, behind⟩ := result
        have small := fits number behind encoded
        simp only [if_pos small, Nat.mod_eq_of_lt small]

theorem readExactly_iff {n : IntBit} {byte : Octet} {rest : Octets} :
    ReadExactly n byte rest ↔ ¬ ShiftOverflow n byte rest ∧ Fits n byte rest := by
  by_cases overflow : ShiftOverflow n byte rest
  · exact ⟨fun exactly => absurd exactly (not_readExactly_of_overflow overflow),
      fun ⟨within, _⟩ => absurd overflow within⟩
  · rw [readExactly_iff_fits overflow]
    exact ⟨fun fits => ⟨overflow, fits⟩, And.right⟩

/-- What the integer codec does with every integer and with all octets. -/
theorem integer_codec (n : IntBit) :
    (∀ flags i, Clear flags n → i ≤ naturalLast → (Returned n flags i ↔ i ≠ 0)) ∧
      ∀ byte rest, ReadExactly n byte rest ↔ ¬ ShiftOverflow n byte rest ∧ Fits n byte rest :=
  ⟨fun _ _ => returned_iff, fun _ _ => readExactly_iff⟩

theorem length_three_hundred :
    Returned ⟨7, by decide⟩ 0x80 300 ∧ ReadExactly ⟨5, by decide⟩ 0x3F [0x9A, 0x0A] := by
  have five := (integer_codec ⟨5, by decide⟩).2 0x3F [0x9A, 0x0A]
  have seven := (integer_codec ⟨7, by decide⟩).1 0x80 300 (by decide) (by decide)
  refine ⟨seven.mpr (by decide), five.mpr ⟨by decide, ?_⟩⟩
  intro number behind encoded
  have value : PrefixInteger.read 5 0x3F [0x9A, 0x0A] = some (1337, []) := by decide
  obtain ⟨rfl, _⟩ := Prod.mk.inj (Option.some.inj (value.symm.trans encoded))
  decide

/-- The length of an empty string cannot be sent, and the length `2 ^ 32` is read as zero. -/
theorem length_zero_and_wrapped :
    ¬ Returned ⟨7, by decide⟩ 0 0 ∧
      ¬ ReadExactly ⟨7, by decide⟩ 0xFF [0x81, 0xFF, 0xFF, 0xFF, 0x0F] := by
  constructor
  · rw [returned_iff (by decide) (by decide)]
    exact fun nonzero => nonzero rfl
  · rw [readExactly_iff]
    rintro ⟨_, fits⟩
    exact absurd (fits (2 ^ 32) [] (by decide)) (by decide)

end Hpack
end Http2
end AdaWebServer

import AdaWebServer.Http2.Basic

/-!
# Hexadecimal numbers
-/

namespace AdaWebServer
namespace Utils

open Http2 (Octet Text digitValue)

/-- `Utils.Hex`. -/
def hex (number : Nat) : Text :=
  (Nat.toDigits 16 number).map fun digit => digit.toUpper.toNat.toUInt8

/-- The octet of a digit. -/
private def digitOctet (digit : Nat) : Octet := digit.digitChar.toUpper.toNat.toUInt8

private theorem digitValue_digitOctet {digit : Nat} (small : digit < 16) :
    digitValue (digitOctet digit) = some digit := by
  have all : ∀ digit : Fin 16, digitValue (digitOctet digit) = some digit.1 := by decide
  exact all ⟨digit, small⟩

private theorem hex_of_lt {number : Nat} (small : number < 16) :
    hex number = [digitOctet number] := by
  rw [hex, Nat.toDigits_of_lt_base small, List.map_singleton, digitOctet]

private theorem hex_of_le {number : Nat} (large : 16 ≤ number) :
    hex number = hex (number / 16) ++ [digitOctet (number % 16)] := by
  rw [hex, Nat.toDigits_of_base_le (by decide) large, List.map_append, List.map_singleton, hex,
    digitOctet]

/-- The digits are hexadecimal and stand for the number. -/
theorem hex_spec (number : Nat) :
    (∀ digit ∈ hex number, (digitValue digit).isSome) ∧
      (hex number).foldl (fun value digit => value * 16 + (digitValue digit).getD 0) 0 = number := by
  induction number using Nat.strong_induction_on with
  | _ number ih =>
      obtain small | large := Nat.lt_or_ge number 16
      · rw [hex_of_lt small]
        simp [digitValue_digitOctet small]
      · obtain ⟨digits, value_eq⟩ := ih (number / 16) (by omega)
        have last := digitValue_digitOctet (Nat.mod_lt number (by decide : 0 < 16))
        rw [hex_of_le large, List.foldl_append, value_eq]
        constructor
        · rw [List.forall_mem_append, List.forall_mem_singleton, last]
          exact ⟨digits, rfl⟩
        · rw [List.foldl_cons, List.foldl_nil, last, Option.getD_some]
          omega

theorem hex_ne_nil (number : Nat) : hex number ≠ [] :=
  List.map_eq_nil_iff.not.2 Nat.toDigits_ne_nil

theorem length_hex_le {number count : Nat} (positive : 0 < count) (small : number < 16 ^ count) :
    (hex number).length ≤ count := by
  rw [hex, List.length_map]
  exact (Nat.length_toDigits_le_iff (by decide) positive).2 small

end Utils
end AdaWebServer

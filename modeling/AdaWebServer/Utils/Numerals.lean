import AdaWebServer.Http2.Basic

/-!
# Integer literals

`Integer'Value` takes a decimal numeral with spaces around it, and with no other blanks.
-/

namespace AdaWebServer
namespace Utils

open Http2

/-- A number followed by one more decimal digit. -/
def decimalShift (value : Nat) (digit : Octet) : Nat := value * 10 + (digit.toNat - 48)

/-- Every character is a decimal digit. -/
def Decimal (digits : Text) : Prop := ∀ digit ∈ digits, 48 ≤ digit ∧ digit ≤ 57

instance (digits : Text) : Decidable (Decimal digits) :=
  inferInstanceAs (Decidable (∀ digit ∈ digits, _))

/-- Every character is a space or a horizontal tabulation. -/
def Blank (blanks : Text) : Prop := ∀ c ∈ blanks, c = 32 ∨ c = 9

instance (blanks : Text) : Decidable (Blank blanks) :=
  inferInstanceAs (Decidable (∀ c ∈ blanks, _))

/-- A number that is written in decimal digits. -/
structure Numeral where
  digits : Text
  some_digit : digits ≠ []
  decimal : Decimal digits

/-- The number. -/
def Numeral.value (numeral : Numeral) : Nat := numeral.digits.foldl decimalShift 0

theorem digitValue_decimal {digit : Octet} (decimal : 48 ≤ digit ∧ digit ≤ 57) :
    (digitValue digit).filter (· < 10) = some (digit.toNat - 48) := by
  have small : digit.toNat ≤ 57 := UInt8.le_iff_toNat_le.1 decimal.2
  rw [digitValue, if_pos decimal, Option.filter_some, if_pos (decide_eq_true (by omega))]

theorem digitValue_blank {c : Octet} (blank : c = 32 ∨ c = 9) : digitValue c = none := by
  obtain rfl | rfl := blank <;> rfl

/-- The digits are scanned up to a blank. -/
theorem scanDigits_append {digits rest : Text} (decimal : Decimal digits) (blank : Blank rest)
    (start : Nat) :
    scanDigits 10 start (digits ++ rest) = (digits.foldl decimalShift start, rest) := by
  induction digits generalizing start with
  | nil =>
      cases rest with
      | nil => rfl
      | cons c rest =>
          have first_blank := blank c List.mem_cons_self
          have no_underline : c ≠ 95 := by
            rintro rfl
            exact absurd first_blank (by decide)
          rw [List.nil_append, scanDigits, digitValue_blank first_blank]
          · rfl
          · exact fun _ _ underline _ => no_underline underline
  | cons digit digits ih =>
      rw [Decimal, List.forall_mem_cons] at decimal
      have no_underline : digit ≠ 95 := by
        rintro rfl
        exact absurd decimal.1 (by decide)
      rw [List.cons_append, scanDigits, digitValue_decimal decimal.1, List.foldl_cons]
      · exact ih decimal.2 _
      · exact fun _ _ underline _ => no_underline underline

theorem scanLiteral_numeral (numeral : Numeral) {rest : Text} (blank : Blank rest) :
    scanLiteral (numeral.digits ++ rest) = if rest = [] then some numeral.value else none := by
  obtain ⟨digits, some_digit, decimal⟩ := numeral
  cases digits with
  | nil => exact absurd rfl some_digit
  | cons digit digits =>
      rw [Decimal, List.forall_mem_cons] at decimal
      have scanned : scanNumeral 10 (digit :: digits ++ rest) =
          some ((digit :: digits).foldl decimalShift 0, rest) := by
        rw [List.cons_append, scanNumeral, digitValue_decimal decimal.1, Option.map_some,
          scanDigits_append decimal.2 blank, List.foldl_cons, decimalShift, Nat.zero_mul, Nat.zero_add]
      rw [scanLiteral, scanned]
      cases rest with
      | nil => rfl
      | cons c rest => obtain rfl | rfl := blank c List.mem_cons_self <;> rfl

/-- Blanks without the spaces in front are nothing, or begin with a tabulation. -/
private theorem dropWhile_blank {blanks : Text} (blank : Blank blanks) :
    (9 ∉ blanks ∧ blanks.dropWhile (· = 32) = []) ∨
      9 ∈ blanks ∧ ∃ rest, blanks.dropWhile (· = 32) = 9 :: rest := by
  induction blanks with
  | nil => exact .inl ⟨List.not_mem_nil, rfl⟩
  | cons c blanks ih =>
      rw [Blank, List.forall_mem_cons] at blank
      obtain rfl | rfl := blank.1
      · simpa using ih blank.2
      · exact .inr ⟨List.mem_cons_self, blanks, rfl⟩

/-- Only the blanks are trimmed around a numeral. -/
private theorem trimmed_numeral (numeral : Numeral) (before after : Text) :
    (((before ++ numeral.digits ++ after).dropWhile (· = 32)).reverse.dropWhile (· = 32)).reverse =
      before.dropWhile (· = 32) ++ numeral.digits ++ (after.reverse.dropWhile (· = 32)).reverse := by
  have no_space : 32 ∉ numeral.digits := fun among =>
    absurd (numeral.decimal 32 among).1 (by decide)
  have untrimmed : ∀ octets rest : Text, octets ≠ [] → 32 ∉ octets →
      (octets ++ rest).dropWhile (· = 32) = octets ++ rest := by
    intro octets rest some_octet absent
    obtain ⟨first, octets, rfl⟩ := List.exists_cons_of_ne_nil some_octet
    rw [List.cons_append, List.dropWhile_cons_of_neg]
    rw [decide_eq_true_eq]
    rintro rfl
    exact absent List.mem_cons_self
  have front : (before ++ numeral.digits ++ after).dropWhile (· = 32) =
      before.dropWhile (· = 32) ++ numeral.digits ++ after := by
    rw [List.append_assoc, List.dropWhile_append, untrimmed _ _ numeral.some_digit no_space]
    split
    · next nothing => rw [List.isEmpty_iff.1 nothing, List.nil_append]
    · rw [List.append_assoc]
  rw [front, List.reverse_append, List.dropWhile_append, List.reverse_append,
    untrimmed _ _ (by simpa using numeral.some_digit) (by simpa using no_space)]
  split
  · next nothing =>
      rw [List.isEmpty_iff.1 nothing]
      simp only [List.reverse_append, List.reverse_reverse, List.reverse_nil, List.append_nil]
  · simp only [List.reverse_append, List.reverse_reverse]

theorem scanSigned_digit {digit : UInt8} (first_digit : 48 ≤ digit ∧ digit ≤ 57) (digits : Text) :
    (match digit :: digits with
      | 45 :: literal => (scanLiteral literal).map fun number => -(number : Int)
      | 43 :: literal => (scanLiteral literal).map fun number => (number : Int)
      | literal => (scanLiteral literal).map fun number => (number : Int)) =
      (scanLiteral (digit :: digits)).map fun number => (number : Int) := by
  split
  · next same =>
      obtain ⟨rfl, -⟩ := List.cons.inj same
      exact absurd first_digit (by decide)
  · next same =>
      obtain ⟨rfl, -⟩ := List.cons.inj same
      exact absurd first_digit (by decide)
  · rfl

/-- A numeral with blanks around it is a literal if the blanks are spaces. -/
theorem integerValue_numeral (numeral : Numeral) {before after : Text} (before_blank : Blank before)
    (after_blank : Blank after) :
    integerValue (before ++ numeral.digits ++ after) =
      if 9 ∈ before ∨ 9 ∈ after then none else some (numeral.value : Int) := by
  have back_blank : Blank (after.reverse.dropWhile (· = 32)).reverse := fun c among =>
    after_blank c (List.mem_reverse.1 (List.dropWhile_subset _ (List.mem_reverse.1 among)))
  rw [integerValue, trimmed_numeral]
  obtain ⟨no_tab, front_eq⟩ | ⟨tab, rest, front_eq⟩ := dropWhile_blank before_blank
  · have literal := scanLiteral_numeral numeral back_blank
    rw [front_eq, List.nil_append]
    obtain ⟨digit, digits, digits_eq⟩ := List.exists_cons_of_ne_nil numeral.some_digit
    have first_digit := numeral.decimal digit (digits_eq ▸ List.mem_cons_self)
    have scanned := scanSigned_digit first_digit
      (digits ++ (after.reverse.dropWhile (· = 32)).reverse)
    rw [← List.cons_append, ← digits_eq, literal] at scanned
    refine scanned.trans ?_
    have reversed_blank : Blank after.reverse := fun c among =>
      after_blank c (List.mem_reverse.1 among)
    have back := dropWhile_blank reversed_blank
    rw [List.mem_reverse] at back
    obtain ⟨no_later, back_eq⟩ | ⟨later, rest, back_eq⟩ := back
    · rw [back_eq, if_pos List.reverse_nil, if_neg (by simp [no_tab, no_later])]
      rfl
    · rw [back_eq, if_neg (by simp), if_pos (.inr later)]
      rfl
  · rw [front_eq, if_pos (.inl tab)]
    rfl

theorem integerValue_blank {blanks : Text} (blank : Blank blanks) : integerValue blanks = none := by
  rw [integerValue]
  obtain ⟨-, front_eq⟩ | ⟨-, rest, front_eq⟩ := dropWhile_blank blank
  · rw [front_eq]
    rfl
  · obtain ⟨kept, back_eq⟩ : ∃ kept, ((9 :: rest).reverse.dropWhile (· = 32)).reverse = 9 :: kept := by
      rw [List.reverse_cons, List.dropWhile_append]
      split
      · exact ⟨[], rfl⟩
      · exact ⟨_, List.reverse_concat ..⟩
    rw [front_eq, back_eq]
    rfl

end Utils
end AdaWebServer

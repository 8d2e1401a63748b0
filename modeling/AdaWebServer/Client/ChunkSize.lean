import Mathlib.Data.List.TakeWhile
import AdaWebServer.Client.ReadSome

/-!
# The lines with the sizes of chunks

A chunk is announced by a line with its size in hexadecimal, which may be followed by extensions.
-/

namespace AdaWebServer
namespace Client

open Http2 (Octet Octets Text Exn Positive digitValue natural naturalLast)
open Net (Buffered lf crlf)

/-- A number followed by one more hexadecimal digit. -/
def hexShift (value : Nat) (digit : Octet) : Nat := value * 16 + (digitValue digit).getD 0

/-- The number that hexadecimal digits stand for. -/
def hexNumber (digits : Text) : Nat := digits.foldl hexShift 0

/-- Every character is a hexadecimal digit. -/
def Hexadecimal (digits : Text) : Prop := ∀ digit ∈ digits, (digitValue digit).isSome

/-- A line that gives the size of a chunk, with its extensions. -/
structure SizeLine where
  digits : Text
  extension : Text
  digits_ne : digits ≠ []
  hexadecimal : Hexadecimal digits
  extension_start : ∀ start ∈ extension.head?, start = 59
  extension_line : lf ∉ extension

namespace SizeLine

theorem nil_start : ∀ start ∈ ([] : Text).head?, start = 59 := nofun

/-- The text of the line. -/
def text (size : SizeLine) : Text := size.digits ++ size.extension

/-- The octets of the line. -/
def octets (size : SizeLine) : Octets := size.text ++ crlf

/-- The size that the line gives. -/
def value (size : SizeLine) : Nat := hexNumber size.digits

/-- The line has no extensions, and neither its length nor the size exceeds its limit. -/
structure Plain (inputLimit : Positive) (size : SizeLine) : Prop where
  extension_nil : size.extension = []
  digits_fit : size.digits.length < inputLimit
  value_le : size.value ≤ naturalLast

end SizeLine

private theorem le_foldl_hexShift (digits : Text) (start : Nat) :
    start ≤ digits.foldl hexShift start := by
  induction digits generalizing start with
  | nil => exact le_rfl
  | cons digit digits ih =>
      refine le_trans ?_ (ih (hexShift start digit))
      rw [hexShift]
      omega

/-- The number that is read is the one that the digits stand for, if it is in range. -/
private theorem foldlM_addHexDigit (digits : Text) {start value : Nat} (in_range : start ≤ naturalLast) :
    digits.foldlM addHexDigit start = .ok value ↔
      Hexadecimal digits ∧ value = digits.foldl hexShift start ∧ value ≤ naturalLast := by
  induction digits generalizing start with
  | nil =>
      rw [List.foldlM_nil, List.foldl_nil, Http2.pure_eq_ok, Except.ok.injEq]
      constructor
      · rintro rfl
        exact ⟨(by rintro _ ⟨⟩), rfl, in_range⟩
      · rintro ⟨_, value_eq, _⟩
        exact value_eq.symm
  | cons digit digits ih =>
      rw [List.foldlM_cons, List.foldl_cons, addHexDigit, Hexadecimal, List.forall_mem_cons, hexShift]
      cases digit_eq : digitValue digit with
      | none =>
          refine ⟨(by rintro ⟨⟩), ?_⟩
          rintro ⟨⟨some_digit, _⟩, _⟩
          cases some_digit
      | some number =>
          dsimp only [Option.getD_some]
          by_cases small : start * 16 + number ≤ naturalLast
          · rw [Http2.natural_of_le small, Http2.ok_bind, ih small]
            simp [Hexadecimal]
          · have lower := le_foldl_hexShift digits (start * 16 + number)
            rw [Http2.natural_of_gt (not_le.1 small), Http2.error_bind]
            refine ⟨(by rintro ⟨⟩), ?_⟩
            rintro ⟨_, rfl, value_le⟩
            exact absurd (lower.trans value_le) small

theorem hexValue_eq_ok_iff {digits : Text} {value : Nat} :
    hexValue digits = .ok value ↔
      Hexadecimal digits ∧ value = hexNumber digits ∧ value ≤ naturalLast :=
  foldlM_addHexDigit digits (Nat.zero_le _)

theorem trim_of_no_blank {line : Text} (no_blank : 32 ∉ line) : trim line = line := by
  have unchanged : ∀ {rest : Text}, 32 ∉ rest → rest.dropWhile (· = 32) = rest := by
    intro rest absent
    cases rest with
    | nil => rfl
    | cons octet rest =>
        rw [List.mem_cons, not_or] at absent
        exact List.dropWhile_cons_of_neg (by simpa using Ne.symm absent.1)
  rw [trim, unchanged no_blank, unchanged (by rwa [List.mem_reverse]), List.reverse_reverse]

theorem mem_trim {line : Text} {octet : Octet} (among : octet ∈ line) (no_blank : octet ≠ 32) :
    octet ∈ trim line := by
  have kept : ∀ {rest : Text}, octet ∈ rest → octet ∈ rest.dropWhile (· = 32) := by
    intro rest present
    rw [← List.takeWhile_append_dropWhile (p := (· = 32)) (l := rest), List.mem_append] at present
    refine present.resolve_left fun dropped => no_blank ?_
    simpa using List.mem_takeWhile_imp dropped
  rw [trim, List.mem_reverse]
  exact kept (List.mem_reverse.2 (kept among))

namespace SizeLine

variable {size : SizeLine}

theorem digits_ne_of_none {octet : Octet} (no_digit : digitValue octet = none) :
    octet ∉ size.digits := by
  intro among
  have some_digit := size.hexadecimal octet among
  rw [no_digit] at some_digit
  cases some_digit

theorem lf_not_mem_text (size : SizeLine) : lf ∉ size.text := by
  rw [text, List.mem_append, not_or]
  exact ⟨digits_ne_of_none (by decide), size.extension_line⟩

theorem hexValue_text_iff {value : Nat} :
    hexValue (trim size.text) = .ok value ↔
      size.extension = [] ∧ value = size.value ∧ value ≤ naturalLast := by
  rw [text]
  cases extension_eq : size.extension with
  | nil =>
      rw [List.append_nil, trim_of_no_blank (digits_ne_of_none (by decide)), hexValue_eq_ok_iff]
      simp [size.hexadecimal, SizeLine.value]
  | cons start later =>
      have start_eq : start = 59 := size.extension_start start (by rw [extension_eq]; rfl)
      have among : (59 : Octet) ∈ trim (size.digits ++ start :: later) :=
        mem_trim (List.mem_append_right _ (start_eq ▸ List.mem_cons_self)) (by decide)
      rw [hexValue_eq_ok_iff]
      constructor
      · rintro ⟨hexadecimal, _⟩
        exact absurd (hexadecimal 59 among) (by decide)
      · rintro ⟨extension_nil, _⟩
        cases extension_nil

end SizeLine
end Client
end AdaWebServer

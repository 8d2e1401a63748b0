import AdaWebServer.Http2.Basic
import Mathlib.Data.List.Basic
import Mathlib.Tactic.Common

/-!
# Images of numbers

The image of a number consists of its decimal digits, which determine the number.
-/

namespace AdaWebServer
namespace Utils

open Http2 (Text image text)

private theorem text_eq (literal : String) :
    text literal = literal.toList.flatMap String.utf8EncodeChar := by
  rw [text, String.toUTF8_eq_toByteArray, ← String.utf8Encode_toList, List.utf8Encode,
    List.data_toByteArray]

private theorem digit_range {number : Nat} {digit : Char} (among : digit ∈ Nat.toDigits 10 number) :
    48 ≤ digit.toNat ∧ digit.toNat ≤ 57 := by
  have is_digit := Nat.isDigit_of_mem_toDigits (by decide) (by decide) among
  rw [Char.isDigit, Bool.and_eq_true, decide_eq_true_eq, decide_eq_true_eq] at is_digit
  exact ⟨is_digit.1, is_digit.2⟩

private theorem encode_digit {digit : Char} (below : digit.toNat ≤ 57) :
    String.utf8EncodeChar digit = [UInt8.ofNat digit.toNat] := by
  have size : digit.utf8Size = 1 := by
    rw [Char.utf8Size_eq_one_iff, UInt32.le_iff_toNat_le]
    exact below.trans (by decide)
  rw [String.utf8EncodeChar_eq_singleton size]
  rfl

theorem image_eq_map (number : Nat) :
    image number = (Nat.toDigits 10 number).map fun digit => UInt8.ofNat digit.toNat := by
  rw [image, Nat.toString_eq_repr, text_eq, Nat.toList_repr]
  have digits : ∀ digit ∈ Nat.toDigits 10 number, digit.toNat ≤ 57 := fun _ among =>
    (digit_range among).2
  generalize Nat.toDigits 10 number = shown at digits
  induction shown with
  | nil => rfl
  | cons digit rest ih =>
      rw [List.flatMap_cons, List.map_cons, encode_digit (digits digit List.mem_cons_self),
        ih fun other among => digits other (List.mem_cons_of_mem digit among), List.singleton_append]

theorem mem_image {number : Nat} {octet : UInt8} (among : octet ∈ image number) :
    48 ≤ octet.toNat ∧ octet.toNat ≤ 57 := by
  rw [image_eq_map] at among
  obtain ⟨digit, shown, rfl⟩ := List.mem_map.mp among
  have range := digit_range shown
  rw [UInt8.toNat_ofNat', Nat.mod_eq_of_lt (by omega)]
  exact range

theorem foldl_image (number : Nat) :
    (image number).foldl (fun value octet => 10 * value + (octet.toNat - 48)) 0 = number := by
  conv_rhs => rw [← @Nat.ofDigitChars_ten_toDigits number]
  rw [image_eq_map, List.foldl_map, Nat.ofDigitChars]
  apply List.foldl_ext
  intro value digit among
  have range := digit_range among
  rw [UInt8.toNat_ofNat', Nat.mod_eq_of_lt (by omega)]
  rfl

theorem image_injective : Function.Injective image := by
  intro first second same
  rw [← foldl_image first, same, foldl_image]

end Utils
end AdaWebServer

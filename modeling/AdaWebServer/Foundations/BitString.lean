import Mathlib.Data.List.Basic
import Mathlib.Tactic.IntervalCases
import Mathlib.Tactic.Ring

/-!
# Bit strings and octets

Bit strings are lists of Booleans with the most significant bit first.  This file relates them to
numbers of a fixed width, unpacks octets into bits, and packs a bit string into octets whose last
one is filled with ones.
-/

namespace AdaWebServer
namespace BitString

/-- Number denoted by a bit string. -/
def value : List Bool → Nat
  | [] => 0
  | bit :: bits => bit.toNat * 2 ^ bits.length + value bits

/-- The `width` low-order bits of a number. -/
def ofNat : Nat → Nat → List Bool
  | 0, _ => []
  | width + 1, number => number.testBit width :: ofNat width number

@[simp]
theorem value_nil : value [] = 0 := rfl

theorem value_append (left right : List Bool) :
    value (left ++ right) = value left * 2 ^ right.length + value right := by
  induction left with
  | nil => simp
  | cons bit bits ih =>
      simp only [List.cons_append, value, ih, List.length_append]
      ring

theorem value_lt (bits : List Bool) : value bits < 2 ^ bits.length := by
  induction bits with
  | nil => simp
  | cons bit bits ih =>
      have head_le : bit.toNat ≤ 1 := bit.toNat_le
      have scaled : bit.toNat * 2 ^ bits.length ≤ 1 * 2 ^ bits.length :=
        Nat.mul_le_mul_right _ head_le
      simp only [value, List.length_cons, pow_succ]
      omega

theorem value_replicate_true (width : Nat) :
    value (List.replicate width true) = 2 ^ width - 1 := by
  induction width with
  | zero => rfl
  | succ width ih =>
      have positive : 0 < 2 ^ width := by positivity
      simp only [List.replicate_succ, value, List.length_replicate, ih, Bool.toNat_true, pow_succ]
      omega

@[simp]
theorem ofNat_length (width number : Nat) : (ofNat width number).length = width := by
  induction width with
  | zero => rfl
  | succ width ih => simp [ofNat, ih]

theorem value_ofNat (width number : Nat) : value (ofNat width number) = number % 2 ^ width := by
  induction width with
  | zero => simp [ofNat, Nat.mod_one]
  | succ width ih =>
      rw [ofNat, value, ofNat_length, ih, Nat.testBit_eq_decide_div_mod_eq, pow_succ,
        Nat.mod_mul]
      rcases Nat.mod_two_eq_zero_or_one (number / 2 ^ width) with bit | bit <;>
        simp [bit, Nat.add_comm]

theorem ofNat_add (high low number : Nat) :
    ofNat (high + low) number = ofNat high (number / 2 ^ low) ++ ofNat low number := by
  induction high with
  | zero => simp [ofNat]
  | succ high ih =>
      rw [Nat.succ_add, ofNat, ofNat, ih, Nat.testBit_div_two_pow]
      rfl

theorem value_injective {left right : List Bool} (lengths : left.length = right.length)
    (values : value left = value right) : left = right := by
  induction left generalizing right with
  | nil => simpa using lengths.symm
  | cons bit bits ih =>
      obtain _ | ⟨other, others⟩ := right
      · simp at lengths
      · have tails : bits.length = others.length := by simpa using lengths
        have left_lt := value_lt bits
        have right_lt := value_lt others
        rw [tails] at left_lt
        simp only [value, tails] at values
        have heads : bit = other := by
          cases bit <;> cases other <;> first | rfl | (simp at values; omega)
        subst heads
        rw [ih tails (by omega)]

theorem ofNat_value (bits : List Bool) : ofNat bits.length (value bits) = bits := by
  apply value_injective (ofNat_length _ _)
  rw [value_ofNat, Nat.mod_eq_of_lt (value_lt bits)]

/-! ## Octets -/

/-- The eight bits of an octet. -/
def ofOctet (octet : UInt8) : List Bool := ofNat 8 octet.toNat

/-- The bits of a string of octets. -/
def ofOctets (octets : List UInt8) : List Bool := octets.flatMap ofOctet

@[simp]
theorem ofOctet_length (octet : UInt8) : (ofOctet octet).length = 8 := ofNat_length _ _

@[simp]
theorem ofOctets_nil : ofOctets [] = [] := rfl

@[simp]
theorem ofOctets_cons (octet : UInt8) (octets : List UInt8) :
    ofOctets (octet :: octets) = ofOctet octet ++ ofOctets octets := rfl

@[simp]
theorem ofOctets_append (left right : List UInt8) :
    ofOctets (left ++ right) = ofOctets left ++ ofOctets right := by
  simp [ofOctets]

@[simp]
theorem ofOctets_length (octets : List UInt8) : (ofOctets octets).length = 8 * octets.length := by
  induction octets with
  | nil => rfl
  | cons octet octets ih =>
      simp only [ofOctets_cons, List.length_append, ofOctet_length, ih, List.length_cons]
      ring

/-- The octet whose bits are the given eight. -/
def octet (bits : List Bool) : UInt8 := UInt8.ofNat (value bits)

theorem ofOctet_octet {bits : List Bool} (width : bits.length = 8) :
    ofOctet (octet bits) = bits := by
  have small : value bits < 256 := by simpa [width] using value_lt bits
  rw [ofOctet, octet, UInt8.toNat_ofNat_of_lt' (by simpa using small), ← width]
  exact ofNat_value bits

theorem octet_ofOctet (o : UInt8) : octet (ofOctet o) = o := by
  rw [octet, ofOctet, value_ofNat, Nat.mod_eq_of_lt o.toNat_lt]
  exact UInt8.ofNat_toNat

/-- Fill a bit string with ones up to eight bits. -/
def fill (bits : List Bool) : List Bool := bits ++ List.replicate (8 - bits.length) true

/-- Pack a bit string into octets, filling the last one with ones. -/
def pack : List Bool → List UInt8
  | b₀ :: b₁ :: b₂ :: b₃ :: b₄ :: b₅ :: b₆ :: b₇ :: bits =>
      octet [b₀, b₁, b₂, b₃, b₄, b₅, b₆, b₇] :: pack bits
  | [] => []
  | bits => [octet (fill bits)]

theorem fill_length {bits : List Bool} (short : bits.length ≤ 8) : (fill bits).length = 8 := by
  simp [fill, short]

private theorem eight_leading_bits {bits : List Bool} (long : 8 ≤ bits.length) :
    ∃ b₀ b₁ b₂ b₃ b₄ b₅ b₆ b₇ rest,
      bits = b₀ :: b₁ :: b₂ :: b₃ :: b₄ :: b₅ :: b₆ :: b₇ :: rest := by
  match bits, long with
  | b₀ :: b₁ :: b₂ :: b₃ :: b₄ :: b₅ :: b₆ :: b₇ :: rest, _ =>
      exact ⟨b₀, b₁, b₂, b₃, b₄, b₅, b₆, b₇, rest, rfl⟩

theorem pack_append {front : List Bool} (width : front.length = 8) (bits : List Bool) :
    pack (front ++ bits) = octet front :: pack bits := by
  obtain ⟨b₀, b₁, b₂, b₃, b₄, b₅, b₆, b₇, rest, rfl⟩ := eight_leading_bits width.ge
  obtain rfl : rest = [] := by simpa using width
  rfl

theorem pack_short {bits : List Bool} (nonempty : bits ≠ []) (short : bits.length < 8) :
    pack bits = [octet (fill bits)] := by
  unfold pack
  split
  · simp at short
    omega
  · contradiction
  · rfl

theorem pack_ofOctets_append (octets : List UInt8) (bits : List Bool) :
    pack (ofOctets octets ++ bits) = octets ++ pack bits := by
  induction octets with
  | nil => rfl
  | cons o octets ih =>
      rw [ofOctets_cons, List.append_assoc, pack_append (ofOctet_length o), octet_ofOctet, ih]
      rfl

theorem ofOctets_pack (bits : List Bool) :
    ∃ padding < 8, ofOctets (pack bits) = bits ++ List.replicate padding true := by
  induction bits using pack.induct with
  | case1 b₀ b₁ b₂ b₃ b₄ b₅ b₆ b₇ bits ih =>
      obtain ⟨padding, small, equation⟩ := ih
      refine ⟨padding, small, ?_⟩
      rw [pack, ofOctets_cons, ofOctet_octet rfl, equation]
      rfl
  | case2 => exact ⟨0, by decide, rfl⟩
  | case3 bits notWhole nonempty =>
      have short : bits.length < 8 := by
        by_contra long
        obtain ⟨b₀, b₁, b₂, b₃, b₄, b₅, b₆, b₇, rest, equation⟩ := eight_leading_bits (not_lt.mp long)
        exact notWhole _ _ _ _ _ _ _ _ _ equation
      have occupied : 0 < bits.length := List.length_pos_of_ne_nil fun empty => nonempty empty
      refine ⟨8 - bits.length, by omega, ?_⟩
      rw [pack_short (fun empty => nonempty empty) short, ofOctets_cons,
        ofOctet_octet (fill_length short.le)]
      simp [fill]

end BitString
end AdaWebServer

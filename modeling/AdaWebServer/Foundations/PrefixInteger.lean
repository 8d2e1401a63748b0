import Mathlib.Data.List.Basic
import Mathlib.Tactic.Ring

/-!
# Prefix-coded integers

A nonnegative integer is stored in the low-order bits of a first octet when it is smaller than the
number these bits can hold; otherwise these bits are all ones and the rest follows in groups of
seven bits, least significant group first, the last group marked by a clear high-order bit.
-/

namespace AdaWebServer
namespace PrefixInteger

/-- Groups of seven bits, bounding the recursion by the first argument. -/
def groups : Nat → Nat → List UInt8
  | 0, number => [UInt8.ofNat number]
  | bound + 1, number =>
      if 128 ≤ number then
        UInt8.ofNat (number % 128 + 128) :: groups bound (number / 128)
      else
        [UInt8.ofNat number]

/-- Octets that follow a first octet whose prefix is full. -/
def continuation (number : Nat) : List UInt8 := groups number number

/-- Read the octets that follow a full prefix. -/
def readContinuation : List UInt8 → Option (Nat × List UInt8)
  | [] => none
  | octet :: rest =>
      if octet.toNat < 128 then
        some (octet.toNat, rest)
      else
        (readContinuation rest).map fun (higher, rest) => (octet.toNat % 128 + 128 * higher, rest)

/-- Encode an integer on `width` bits below the given flag bits. -/
def encode (width flags number : Nat) : List UInt8 :=
  if number < 2 ^ width - 1 then
    [UInt8.ofNat (flags + number)]
  else
    UInt8.ofNat (flags + (2 ^ width - 1)) :: continuation (number - (2 ^ width - 1))

/-- Read an integer whose first octet is given. -/
def read (width : Nat) (first : UInt8) (rest : List UInt8) : Option (Nat × List UInt8) :=
  if first.toNat % 2 ^ width = 2 ^ width - 1 then
    (readContinuation rest).map fun (higher, rest) => (2 ^ width - 1 + higher, rest)
  else
    some (first.toNat % 2 ^ width, rest)

theorem readContinuation_groups (bound number : Nat) (enough : number < 128 * 128 ^ bound)
    (rest : List UInt8) : readContinuation (groups bound number ++ rest) = some (number, rest) := by
  induction bound generalizing number with
  | zero =>
      have small : number < 128 := by simpa using enough
      have octet_value : (UInt8.ofNat number).toNat = number := by
        simp
        omega
      simp [groups, readContinuation, octet_value, small]
  | succ bound ih =>
      rw [groups]
      split
      · next large =>
          have group_value : (UInt8.ofNat (number % 128 + 128)).toNat = number % 128 + 128 := by
            have := Nat.mod_lt number (show 0 < 128 by decide)
            simp
            omega
          have quotient : number / 128 < 128 * 128 ^ bound := by
            rw [Nat.div_lt_iff_lt_mul (by decide)]
            calc
              number < 128 * 128 ^ (bound + 1) := enough
              _ = 128 * 128 ^ bound * 128 := by ring
          simp only [List.cons_append, readContinuation, group_value, ih _ quotient, Option.map_some]
          rw [if_neg (by omega)]
          congr 2
          omega
      · next small =>
          have octet_value : (UInt8.ofNat number).toNat = number := by
            simp
            omega
          simp only [List.cons_append, List.nil_append, readContinuation, octet_value]
          rw [if_pos (by omega)]

theorem readContinuation_continuation (number : Nat) (rest : List UInt8) :
    readContinuation (continuation number ++ rest) = some (number, rest) := by
  apply readContinuation_groups
  calc
    number < 128 ^ number := Nat.lt_pow_self (by decide)
    _ ≤ 128 * 128 ^ number := Nat.le_mul_of_pos_left _ (by decide)

theorem groups_length_le (bound number count : Nat) (small : number < 128 ^ (count + 1)) :
    (groups bound number).length ≤ count + 1 := by
  induction bound generalizing number count with
  | zero => simp [groups]
  | succ bound ih =>
      rw [groups]
      split
      · next large =>
          cases count with
          | zero =>
              rw [Nat.zero_add, pow_one] at small
              omega
          | succ count =>
              have quotient : number / 128 < 128 ^ (count + 1) := by
                rw [Nat.div_lt_iff_lt_mul (by decide)]
                exact lt_of_lt_of_eq small (pow_succ _ _)
              simpa using ih _ count quotient
      · simp

/-- Number of octets looked at when a continuation is read. -/
def continuationRun : List UInt8 → Nat
  | [] => 0
  | octet :: rest => if octet.toNat < 128 then 1 else continuationRun rest + 1

theorem continuationRun_groups (bound number : Nat) (enough : number < 128 * 128 ^ bound)
    (rest : List UInt8) :
    continuationRun (groups bound number ++ rest) = (groups bound number).length := by
  induction bound generalizing number with
  | zero =>
      have small : number < 128 := by simpa using enough
      have octet_value : (UInt8.ofNat number).toNat = number := by
        simp
        omega
      simp [groups, continuationRun, octet_value, small]
  | succ bound ih =>
      rw [groups]
      split
      · next large =>
          have group_value : (UInt8.ofNat (number % 128 + 128)).toNat = number % 128 + 128 := by
            have := Nat.mod_lt number (show 0 < 128 by decide)
            simp
            omega
          have quotient : number / 128 < 128 * 128 ^ bound := by
            rw [Nat.div_lt_iff_lt_mul (by decide)]
            calc
              number < 128 * 128 ^ (bound + 1) := enough
              _ = 128 * 128 ^ bound * 128 := by ring
          rw [List.cons_append, continuationRun, group_value, if_neg (by omega), ih _ quotient,
            List.length_cons]
      · next small =>
          have octet_value : (UInt8.ofNat number).toNat = number := by
            simp
            omega
          rw [List.cons_append, List.nil_append, continuationRun, octet_value,
            if_pos (by omega)]
          rfl

/-- An integer below `2 ^ 35` has a continuation of at most five octets. -/
theorem continuationRun_continuation_le {number : Nat} (small : number < 2 ^ 35)
    (rest : List UInt8) : continuationRun (continuation number ++ rest) ≤ 5 := by
  have enough : number < 128 * 128 ^ number :=
    calc
      number < 128 ^ number := Nat.lt_pow_self (by decide)
      _ ≤ 128 * 128 ^ number := Nat.le_mul_of_pos_left _ (by decide)
  rw [continuation, continuationRun_groups number number enough]
  exact groups_length_le number number 4 (lt_of_lt_of_eq small (by norm_num))

end PrefixInteger
end AdaWebServer

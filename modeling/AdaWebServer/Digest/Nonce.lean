import AdaWebServer.Http2.Wire
import AdaWebServer.Translator.Base64RoundTrip
import AdaWebServer.Utils.Utf8Strings
import Mathlib.Data.List.Basic

/-!
# Digest nonces

A nonce has a time stamp, an index and a signature of both with a private key.  The time stamp keeps
24 bits of the seconds, and the signature is of all of them.
-/

namespace AdaWebServer
namespace Digest

open Http2 (Octet Octets Text Exn naturalLast text octetsOf bigEndian)
open Translator (base64EncodeArray base64DecodeArray EncodingState)
open Utils (AdaString)

/-! ## Times and octets -/

/-- `Ada.Real_Time.Time` of a clock, in nanoseconds. -/
abbrev Time := { nanoseconds : Nat // nanoseconds < 2 ^ 63 }

/-- The `Seconds_Count` of `Split`. -/
def seconds (clock : Time) : Int := (clock.val / 10 ^ 9 : Nat)

/-- `Modular24_Bits'Mod`. -/
def modular24 (number : Int) : Nat := (number % 2 ^ 24).toNat

/-- `To_Byte_Array` for 24 bits. -/
def modularBytes (number : Nat) : Octets := (octetsOf 3 number).reverse

/-- `To_Modular24`. -/
def toModular24 (bytes : Octets) : Nat := bigEndian bytes.reverse

/-- `To_Byte_Array` for a `Seconds_Count`, which has 64 bits. -/
def secondsBytes (number : Int) : Octets := (octetsOf 8 (number % 2 ^ 64).toNat).reverse

/-- `Nonce_Expiration`. -/
def nonceExpiration : Nat := 300

/-- `Time_Dif`, modulo 2 ** 24. -/
def timeDif (secondsNow : Int) (secondsNonce : Nat) : Nat :=
  (modular24 secondsNow + 2 ^ 24 - secondsNonce) % 2 ^ 24

/-- `Base64_Set`. -/
def inBase64Set (c : Octet) : Bool :=
  97 ≤ c && c ≤ 122 || 65 ≤ c && c ≤ 90 || 48 ≤ c && c ≤ 57 || c == 43 || c == 47

/-- `Hexadecimal_Digit_Set`. -/
def isHexadecimalDigit (c : Octet) : Bool :=
  48 ≤ c && c ≤ 57 || 65 ≤ c && c ≤ 70 || 97 ≤ c && c ≤ 102

/-! ## Nonces -/

section Signature

/- The digest of the octets a context has been updated with, and those `Private_Key` has. -/
variable (md5 : Octets → Text) (privateKey : Octets)

/-- The nonce for some seconds and an index. -/
def nonceAt (secondsNow : Int) (nonceIdx : Nat) : Text :=
  let indexStr := base64EncodeArray .mime (modularBytes nonceIdx)
  let timestampStr := base64EncodeArray .mime (modularBytes (modular24 secondsNow))
  timestampStr ++ indexStr ++ md5 (privateKey ++ secondsBytes secondsNow ++ indexStr)

/-- `Create_Nonce`, with the value of `Nonce_Idx` that it leaves. -/
def createNonce (nonceIdx : Nat) (clock : Time) : Text × Nat :=
  let nonceIdx := (nonceIdx + 1) % 2 ^ 24
  (nonceAt md5 privateKey (seconds clock) nonceIdx, nonceIdx)

/-- `Check_Nonce`.  The ranges of indexes are subtypes of `Positive`. -/
def checkNonce (value : AdaString) (clock : Time) : Except Exn Bool :=
  if value.first < 1 ∨ naturalLast < value.first + 39 then .error .constraintError
  else if value.octets.length ≠ 40 then .ok false
  else if (value.octets.take 8).all inBase64Set = false ∨
      (value.octets.drop 8).all isHexadecimalDigit = false then .ok false
  else base64DecodeArray (value.octets.take 4) >>= fun secondsArray =>
    -- `Seconds_Array` has three elements.
    if secondsArray.length ≠ 3 then .error .constraintError
    else
      let secondsNow := seconds clock
      let indexNonce := (value.octets.drop 4).take 4
      let dif := timeDif secondsNow (toModular24 secondsArray)
      if nonceExpiration < dif then .ok false
      else
        .ok (value.octets.drop 8 ==
          md5 (privateKey ++ secondsBytes (secondsNow - dif) ++ indexNonce))

/-- The nonces that are created at some times one after another. -/
def issued (nonceIdx : Nat) : List Time → List Text
  | [] => []
  | clock :: clocks =>
      let created := createNonce md5 privateKey nonceIdx clock
      created.1 :: issued created.2 clocks

/-- Signatures are digests, and those of different messages differ. -/
structure Signs : Prop where
  length : ∀ message, (md5 message).length = 32
  hexadecimal : ∀ message, (md5 message).all isHexadecimalDigit = true
  injective : ∀ first second : Octets, first.length = 12 → second.length = 12 →
    md5 (privateKey ++ first) = md5 (privateKey ++ second) → first = second

end Signature

/-- The forty indexes from the first one of a string are positive. -/
def Indexed (value : AdaString) : Prop := 1 ≤ value.first ∧ value.first + 39 ≤ naturalLast

/-! ## Bytes of numbers -/

theorem length_modularBytes (number : Nat) : (modularBytes number).length = 3 := by
  rw [modularBytes, List.length_reverse, Http2.octetsOf_length]

theorem length_secondsBytes (number : Int) : (secondsBytes number).length = 8 := by
  rw [secondsBytes, List.length_reverse, Http2.octetsOf_length]

theorem toModular24_modularBytes {number : Nat} (small : number < 2 ^ 24) :
    toModular24 (modularBytes number) = number := by
  rw [toModular24, modularBytes, List.reverse_reverse]
  exact Http2.bigEndian_octetsOf_of_lt small

theorem modularBytes_toModular24 {bytes : Octets} (three : bytes.length = 3) :
    modularBytes (toModular24 bytes) = bytes := by
  have same := Http2.octetsOf_bigEndian bytes.reverse
  rw [List.length_reverse, three] at same
  rw [modularBytes, toModular24, same, List.reverse_reverse]

theorem toModular24_lt {bytes : Octets} (three : bytes.length = 3) : toModular24 bytes < 2 ^ 24 := by
  have same := Http2.octetsOf_bigEndian bytes.reverse
  rw [List.length_reverse, three] at same
  have value := Http2.bigEndian_octetsOf 3 (bigEndian bytes.reverse)
  rw [same] at value
  rw [toModular24, value]
  exact Nat.mod_lt _ (by decide)

theorem modular24_lt (number : Int) : modular24 number < 2 ^ 24 := by
  rw [modular24]
  omega

/-- Seconds of 64 bits are told apart by their bytes. -/
theorem secondsBytes_inj {first second : Int} (first_ge : -2 ^ 63 ≤ first) (first_lt : first < 2 ^ 63)
    (second_ge : -2 ^ 63 ≤ second) (second_lt : second < 2 ^ 63)
    (same : secondsBytes first = secondsBytes second) : first = second := by
  have octets_eq := List.reverse_inj.mp same
  have numbers := congrArg bigEndian octets_eq
  rw [Http2.bigEndian_octetsOf_of_lt (by omega), Http2.bigEndian_octetsOf_of_lt (by omega)] at numbers
  omega

theorem seconds_bounds (clock : Time) : 0 ≤ seconds clock ∧ seconds clock < 2 ^ 62 := by
  have bound := clock.property
  rw [seconds]
  omega

/-! ## Characters of the code -/

theorem exists_toChar {c : Octet} (inside : inBase64Set c = true) :
    ∃ bits : UInt8, bits.toNat < 64 ∧ Translator.Base64Mode.mime.toChar bits = c := by
  have table : ∀ i : Fin 256, inBase64Set (UInt8.ofNat i) = true →
      ∃ bits : Fin 64, Translator.Base64Mode.mime.toChar (UInt8.ofNat bits) = UInt8.ofNat i := by
    decide +kernel
  have row := table ⟨c.toNat, c.toNat_lt⟩
  simp only [UInt8.ofNat_toNat] at row
  obtain ⟨bits, char_eq⟩ := row inside
  refine ⟨UInt8.ofNat bits, ?_, char_eq⟩
  rw [UInt8.toNat_ofNat', Nat.mod_eq_of_lt (by omega)]
  exact bits.isLt

theorem inBase64Set_toChar {bits : UInt8} (small : bits.toNat < 64) :
    inBase64Set (Translator.Base64Mode.mime.toChar bits) = true := by
  have table : ∀ i : Fin 64, inBase64Set (Translator.Base64Mode.mime.toChar (UInt8.ofNat i)) = true := by
    decide +kernel
  simpa only [UInt8.ofNat_toNat] using table ⟨bits.toNat, small⟩

/-- Three octets are encoded into four characters of six bits. -/
theorem encode_three (a b c : Octet) :
    base64EncodeArray .mime [a, b, c] =
      [(a >>> (2 : UInt8)) &&& 0x3F, ((a <<< (4 : UInt8)) &&& 0x30) ||| ((b >>> (4 : UInt8)) &&& 0xF),
        ((b <<< (2 : UInt8)) &&& 0x3C) ||| ((c >>> (6 : UInt8)) &&& 0x3), c &&& 0x3F].map
          Translator.Base64Mode.mime.toChar := by
  simp [base64EncodeArray, EncodingState.addAllIn, EncodingState.addIn, EncodingState.flushIn,
    EncodingState.restIn]

theorem encoded_three {bytes : Octets} (three : bytes.length = 3) :
    (base64EncodeArray .mime bytes).length = 4 ∧
      (base64EncodeArray .mime bytes).all inBase64Set = true := by
  obtain ⟨a, b, c, rfl⟩ := List.length_eq_three.mp three
  rw [encode_three]
  refine ⟨rfl, ?_⟩
  have a_lt := a.toNat_lt
  have b_lt := b.toNat_lt
  have c_lt := c.toNat_lt
  rw [List.all_map, List.all_eq_true]
  simp only [List.forall_mem_cons, Function.comp]
  refine ⟨?_, ?_, ?_, ?_, by simp⟩ <;> apply inBase64Set_toChar
  · rw [Translator.toNat_high]
    omega
  · rw [Translator.toNat_second]
    omega
  · rw [Translator.toNat_third]
    omega
  · rw [Translator.toNat_low_six]
    omega

private theorem exists_octet {n : Nat} (small : n < 256) : ∃ a : Octet, a.toNat = n := by
  refine ⟨UInt8.ofNat n, ?_⟩
  rw [UInt8.toNat_ofNat', Nat.mod_eq_of_lt small]

/-- Four characters of the set are what three octets are encoded into. -/
theorem exists_bytes {chars : Text} (four : chars.length = 4)
    (inside : chars.all inBase64Set = true) :
    ∃ bytes : Octets, bytes.length = 3 ∧ base64EncodeArray .mime bytes = chars := by
  obtain ⟨c₁, c₂, c₃, c₄, rfl⟩ := List.length_eq_four.mp four
  simp only [List.all_cons, List.all_nil, Bool.and_true, Bool.and_eq_true] at inside
  obtain ⟨in₁, in₂, in₃, in₄⟩ := inside
  obtain ⟨v₁, h₁, rfl⟩ := exists_toChar in₁
  obtain ⟨v₂, h₂, rfl⟩ := exists_toChar in₂
  obtain ⟨v₃, h₃, rfl⟩ := exists_toChar in₃
  obtain ⟨v₄, h₄, rfl⟩ := exists_toChar in₄
  -- The octets are those of the 24 bits.
  obtain ⟨a, a_eq⟩ := @exists_octet (v₁.toNat * 4 + v₂.toNat / 16) (by omega)
  obtain ⟨b, b_eq⟩ := @exists_octet (v₂.toNat % 16 * 16 + v₃.toNat / 4) (by omega)
  obtain ⟨c, c_eq⟩ := @exists_octet (v₃.toNat % 4 * 64 + v₄.toNat) (by omega)
  have first : (a >>> (2 : UInt8)) &&& 0x3F = v₁ := by
    rw [← UInt8.toNat_inj, Translator.toNat_high, a_eq]
    omega
  have second : ((a <<< (4 : UInt8)) &&& 0x30) ||| ((b >>> (4 : UInt8)) &&& 0xF) = v₂ := by
    rw [← UInt8.toNat_inj, Translator.toNat_second, a_eq, b_eq]
    omega
  have third : ((b <<< (2 : UInt8)) &&& 0x3C) ||| ((c >>> (6 : UInt8)) &&& 0x3) = v₃ := by
    rw [← UInt8.toNat_inj, Translator.toNat_third, b_eq, c_eq]
    omega
  have fourth : c &&& 0x3F = v₄ := by
    rw [← UInt8.toNat_inj, Translator.toNat_low_six, c_eq]
    omega
  refine ⟨[a, b, c], rfl, ?_⟩
  rw [encode_three, first, second, third, fourth]
  rfl

/-! ## Differences of times -/

/-- The difference is restored when it is small. -/
theorem timeDif_of_le {secondsNow secondsNonce : Int} (passed : secondsNonce ≤ secondsNow)
    (soon : secondsNow - secondsNonce ≤ nonceExpiration) :
    (timeDif secondsNow (modular24 secondsNonce) : Int) = secondsNow - secondsNonce := by
  rw [nonceExpiration] at soon
  rw [timeDif, modular24, modular24]
  omega

/-- The time stamp is that of the time it is taken for. -/
theorem modular24_sub_timeDif (secondsNow : Int) {secondsNonce : Nat} (small : secondsNonce < 2 ^ 24) :
    modular24 (secondsNow - timeDif secondsNow secondsNonce) = secondsNonce := by
  rw [timeDif, modular24, modular24]
  omega

/-! ## Checking -/

/-- The parts of a nonce. -/
structure Shape (nonce : Text) (stamp index : Octets) (sample : Text) : Prop where
  nonce_eq : nonce = base64EncodeArray .mime stamp ++ base64EncodeArray .mime index ++ sample
  stamp : stamp.length = 3
  index : index.length = 3
  length : sample.length = 32
  hexadecimal : sample.all isHexadecimalDigit = true

section Check

variable {md5 : Octets → Text} {privateKey : Octets}

theorem shape_nonceAt (signs : Signs md5 privateKey) (secondsNow : Int) (nonceIdx : Nat) :
    Shape (nonceAt md5 privateKey secondsNow nonceIdx) (modularBytes (modular24 secondsNow))
      (modularBytes nonceIdx)
      (md5 (privateKey ++ secondsBytes secondsNow ++ base64EncodeArray .mime (modularBytes nonceIdx))) :=
  ⟨rfl, length_modularBytes _, length_modularBytes _, signs.length _, signs.hexadecimal _⟩

/-- What does not have these parts is refused. -/
theorem shape_or_refused {value : AdaString} (indexed : Indexed value) (clock : Time) :
    (∃ stamp index sample, Shape value.octets stamp index sample) ∨
      checkNonce md5 privateKey value clock = .ok false := by
  have within : ¬ (value.first < 1 ∨ naturalLast < value.first + 39) := by
    rw [Indexed] at indexed
    omega
  rw [checkNonce, if_neg within]
  split_ifs with length characters
  · exact .inr rfl
  · exact .inr rfl
  · rw [not_or, Bool.not_eq_false, Bool.not_eq_false] at characters
    rw [not_not] at length
    obtain ⟨code, hexadecimal⟩ := characters
    have halves : value.octets.take 8 = value.octets.take 4 ++ (value.octets.drop 4).take 4 :=
      List.take_add (l := value.octets) (i := 4) (j := 4)
    rw [halves, List.all_append, Bool.and_eq_true] at code
    have first_four : (value.octets.take 4).length = 4 := by
      rw [List.length_take]
      omega
    have second_four : ((value.octets.drop 4).take 4).length = 4 := by
      rw [List.length_take, List.length_drop]
      omega
    obtain ⟨stamp, stamp_three, stamp_eq⟩ := exists_bytes first_four code.1
    obtain ⟨index, index_three, index_eq⟩ := exists_bytes second_four code.2
    refine .inl ⟨stamp, index, value.octets.drop 8, ?_, stamp_three, index_three, ?_, hexadecimal⟩
    · rw [stamp_eq, index_eq, ← halves, List.take_append_drop]
    · rw [List.length_drop, length]

/-- What the check answers for a nonce of the right shape. -/
theorem Shape.checkNonce {value : AdaString} {stamp index : Octets} {sample : Text}
    (shape : Shape value.octets stamp index sample) (indexed : Indexed value) (clock : Time) :
    checkNonce md5 privateKey value clock =
      .ok (decide (timeDif (seconds clock) (toModular24 stamp) ≤ nonceExpiration) &&
        sample == md5 (privateKey ++
          secondsBytes (seconds clock - timeDif (seconds clock) (toModular24 stamp)) ++
            base64EncodeArray .mime index)) := by
  obtain ⟨nonce_eq, stamp_three, index_three, length, hexadecimal⟩ := shape
  obtain ⟨stamp_four, stamp_code⟩ := encoded_three stamp_three
  obtain ⟨index_four, index_code⟩ := encoded_three index_three
  have within : ¬ (value.first < 1 ∨ naturalLast < value.first + 39) := by
    rw [Indexed] at indexed
    omega
  have front : (base64EncodeArray .mime stamp ++ base64EncodeArray .mime index).length = 8 := by
    rw [List.length_append, stamp_four, index_four]
  have take_eight : value.octets.take 8 =
      base64EncodeArray .mime stamp ++ base64EncodeArray .mime index := by
    rw [nonce_eq]
    exact List.take_left' front
  have drop_eight : value.octets.drop 8 = sample := by
    rw [nonce_eq]
    exact List.drop_left' front
  have take_four : value.octets.take 4 = base64EncodeArray .mime stamp := by
    rw [nonce_eq, List.append_assoc]
    exact List.take_left' stamp_four
  have second_four : (value.octets.drop 4).take 4 = base64EncodeArray .mime index := by
    rw [nonce_eq, List.append_assoc, List.drop_left' stamp_four]
    exact List.take_left' index_four
  have forty : value.octets.length = 40 := by
    rw [nonce_eq, List.length_append, front, length]
  have characters : ¬ ((value.octets.take 8).all inBase64Set = false ∨
      (value.octets.drop 8).all isHexadecimalDigit = false) := by
    rw [take_eight, drop_eight, List.all_append, stamp_code, index_code, hexadecimal]
    decide
  have decoded : base64DecodeArray (value.octets.take 4) = .ok stamp := by
    rw [take_four]
    exact (Translator.decode_of_restored (Translator.restored_base64Encode .mime stamp)).1
  rw [Digest.checkNonce, if_neg within, if_neg (not_not.mpr forty), if_neg characters, decoded,
    Http2.ok_bind, if_neg (not_not.mpr stamp_three), drop_eight, second_four]
  dsimp only
  split_ifs with late
  · rw [decide_eq_false (by omega), Bool.false_and]
  · rw [decide_eq_true (by omega), Bool.true_and]

/-- A nonce is accepted up to the expiration time. -/
theorem checkNonce_nonceAt (signs : Signs md5 privateKey) {value : AdaString} (indexed : Indexed value)
    {secondsNow : Int} {nonceIdx : Nat} {check : Time} (passed : secondsNow ≤ seconds check)
    (soon : seconds check - secondsNow ≤ nonceExpiration)
    (nonce_eq : value.octets = nonceAt md5 privateKey secondsNow nonceIdx) :
    checkNonce md5 privateKey value check = .ok true := by
  have shape := shape_nonceAt signs secondsNow nonceIdx
  rw [← nonce_eq] at shape
  have dif_eq := timeDif_of_le passed soon
  have in_time : timeDif (seconds check) (modular24 secondsNow) ≤ nonceExpiration := by omega
  rw [shape.checkNonce indexed, toModular24_modularBytes (modular24_lt _), dif_eq, sub_sub_cancel,
    decide_eq_true in_time, Bool.true_and, beq_self_eq_true]

/-- Whatever the string is, there is an answer, and it is true for nonces of the last seconds only. -/
theorem checkNonce_accepted {value : AdaString} (indexed : Indexed value) (check : Time) :
    ∃ answer, checkNonce md5 privateKey value check = .ok answer ∧
      (answer = true → ∃ secondsNow nonceIdx, secondsNow ≤ seconds check ∧
        seconds check - secondsNow ≤ nonceExpiration ∧
        value.octets = nonceAt md5 privateKey secondsNow nonceIdx) := by
  obtain ⟨stamp, index, sample, shape⟩ | refused :=
    @shape_or_refused md5 privateKey value indexed check
  · refine ⟨_, shape.checkNonce indexed check, ?_⟩
    rw [Bool.and_eq_true, decide_eq_true_iff, beq_iff_eq]
    rintro ⟨soon, sample_eq⟩
    refine ⟨seconds check - timeDif (seconds check) (toModular24 stamp), toModular24 index,
      by omega, by omega, ?_⟩
    rw [nonceAt, modular24_sub_timeDif _ (toModular24_lt shape.stamp),
      modularBytes_toModular24 shape.stamp, modularBytes_toModular24 shape.index, ← sample_eq]
    exact shape.nonce_eq
  · exact ⟨false, refused, by rintro ⟨⟩⟩

/-- A nonce that is accepted later has been created in the expiration time before. -/
theorem le_nonceExpiration_of_accepted (signs : Signs md5 privateKey) {value : AdaString}
    (indexed : Indexed value) {nonceIdx : Nat} {issue check : Time}
    (nonce_eq : value.octets = nonceAt md5 privateKey (seconds issue) nonceIdx)
    (accepted : checkNonce md5 privateKey value check = .ok true) :
    seconds check - seconds issue ≤ nonceExpiration := by
  have shape := shape_nonceAt signs (seconds issue) nonceIdx
  rw [← nonce_eq] at shape
  rw [shape.checkNonce indexed, toModular24_modularBytes (modular24_lt _)] at accepted
  have both := Except.ok.inj accepted
  rw [Bool.and_eq_true, decide_eq_true_iff, beq_iff_eq, List.append_assoc, List.append_assoc] at both
  obtain ⟨soon, same⟩ := both
  have lengths : ∀ number : Int,
      (secondsBytes number ++ base64EncodeArray .mime (modularBytes nonceIdx)).length = 12 := by
    intro number
    rw [List.length_append, length_secondsBytes, (encoded_three (length_modularBytes _)).1]
  -- The signature is of all the seconds, also where the time stamp has wrapped around.
  have bytes := List.append_cancel_right (signs.injective _ _ (lengths _) (lengths _) same)
  have issue_bounds := seconds_bounds issue
  have check_bounds := seconds_bounds check
  rw [nonceExpiration] at soon ⊢
  have numbers := secondsBytes_inj (by omega) (by omega) (by omega) (by omega) bytes
  omega

end Check

/-- Life time of nonces: in seconds of the clock, a nonce is accepted exactly up to the expiration
time after it has been created, and any string is answered by whether it is the nonce for some second of
that time before the check and some index. -/
theorem checkNonce_lifetime {md5 : Octets → Text} {privateKey : Octets}
    (signs : Signs md5 privateKey) :
    (∀ (nonceIdx : Nat) (issue check : Time) (value : AdaString), issue.val ≤ check.val →
      Indexed value → value.octets = (createNonce md5 privateKey nonceIdx issue).1 →
      checkNonce md5 privateKey value check =
        .ok (decide (seconds check - seconds issue ≤ nonceExpiration))) ∧
    ∀ (check : Time) (value : AdaString), Indexed value →
      ∃ answer, checkNonce md5 privateKey value check = .ok answer ∧
        (answer = true ↔ ∃ secondsNow nonceIdx, secondsNow ≤ seconds check ∧
          seconds check - secondsNow ≤ nonceExpiration ∧
          value.octets = nonceAt md5 privateKey secondsNow nonceIdx) := by
  constructor
  · intro nonceIdx issue check value later indexed nonce_eq
    have passed : seconds issue ≤ seconds check := by
      have quotients := Nat.div_le_div_right (c := 10 ^ 9) later
      rw [seconds, seconds]
      omega
    obtain ⟨answer, answered, -⟩ := checkNonce_accepted indexed check
    rw [answered]
    refine congrArg Except.ok (Bool.eq_iff_iff.mpr ?_)
    rw [decide_eq_true_iff]
    constructor
    · rintro rfl
      exact le_nonceExpiration_of_accepted signs indexed nonce_eq answered
    · intro soon
      rw [checkNonce_nonceAt signs indexed passed soon nonce_eq] at answered
      exact (Except.ok.inj answered).symm
  · intro check value indexed
    obtain ⟨answer, answered, created⟩ := checkNonce_accepted indexed check
    refine ⟨answer, answered, created, ?_⟩
    rintro ⟨secondsNow, nonceIdx, passed, soon, nonce_eq⟩
    rw [checkNonce_nonceAt signs indexed passed soon nonce_eq] at answered
    exact (Except.ok.inj answered).symm

/-! ## A nonce -/

/-- Sixteen digits. -/
def hexDigit (n : Nat) : Octet := UInt8.ofNat (if n < 10 then 48 + n else 87 + n)

/-- The digits of an octet. -/
def hexOctet (c : Octet) : Text := [hexDigit (c.toNat / 16), hexDigit (c.toNat % 16)]

/-- A private key. -/
def sampleKey : Octets := List.replicate 32 97

/-- What is signed at five seconds for the index 1. -/
def sampleMessage : Octets := sampleKey ++ [5, 0, 0, 0, 0, 0, 0, 0] ++ text "AQAA"

/-- The MD5 digest of one message, and digits of what follows the key in the other ones. -/
def sampleMd5 (message : Octets) : Text :=
  if message = sampleMessage then text "f90cad5f4c5a871069bebb3e68abe998"
  else ((message.drop 32).flatMap hexOctet ++ List.replicate 32 48).take 32

theorem all_hexOctet (octets : Octets) : (octets.flatMap hexOctet).all isHexadecimalDigit = true := by
  have table : ∀ i : Fin 256, (hexOctet (UInt8.ofNat i)).all isHexadecimalDigit = true := by
    decide +kernel
  rw [List.all_flatMap, List.all_eq_true]
  intro c _
  simpa only [UInt8.ofNat_toNat] using table ⟨c.toNat, c.toNat_lt⟩

theorem hexOctet_inj {first second : Octet} (same : hexOctet first = hexOctet second) :
    first = second := by
  have table : ∀ i j : Fin 16, hexDigit i = hexDigit j → i = j := by decide +kernel
  have first_lt := first.toNat_lt
  have second_lt := second.toNat_lt
  obtain ⟨high, rest⟩ := List.cons_eq_cons.mp same
  obtain ⟨low, -⟩ := List.cons_eq_cons.mp rest
  have high_eq := table ⟨first.toNat / 16, by omega⟩ ⟨second.toNat / 16, by omega⟩ high
  have low_eq := table ⟨first.toNat % 16, by omega⟩ ⟨second.toNat % 16, by omega⟩ low
  rw [Fin.mk.injEq] at high_eq low_eq
  apply UInt8.toNat_inj.mp
  omega

theorem flatMap_hexOctet_inj {first second : Octets}
    (same : first.flatMap hexOctet = second.flatMap hexOctet) : first = second := by
  induction first generalizing second with
  | nil =>
      cases second with
      | nil => rfl
      | cons d second => exact absurd same.symm (List.cons_ne_nil _ _)
  | cons c first ih =>
      cases second with
      | nil => exact absurd same (List.cons_ne_nil _ _)
      | cons d second =>
          rw [List.flatMap_cons, List.flatMap_cons] at same
          obtain ⟨head, tail⟩ := List.append_inj same rfl
          rw [hexOctet_inj head, ih tail]

theorem length_flatMap_hexOctet (octets : Octets) :
    (octets.flatMap hexOctet).length = 2 * octets.length := by
  induction octets with
  | nil => rfl
  | cons c octets ih =>
      rw [List.flatMap_cons, List.length_append, ih, List.length_cons]
      show 2 + 2 * octets.length = _
      omega

theorem sampleMd5_sampleMessage :
    sampleMd5 sampleMessage = text "f90cad5f4c5a871069bebb3e68abe998" := if_pos rfl

theorem sampleMd5_other {octets : Octets} (twelve : octets.length = 12)
    (other : sampleKey ++ octets ≠ sampleMessage) :
    sampleMd5 (sampleKey ++ octets) = octets.flatMap hexOctet ++ List.replicate 8 48 := by
  have behind : (sampleKey ++ octets).drop 32 = octets := List.drop_left' rfl
  have eight : (32 : Nat) - (octets.flatMap hexOctet).length = 8 := by
    rw [length_flatMap_hexOctet, twelve]
  have within : (octets.flatMap hexOctet).length ≤ 32 := by
    rw [length_flatMap_hexOctet, twelve]
    decide
  rw [sampleMd5, if_neg other, behind, List.take_append, List.take_of_length_le within, eight]
  rfl

theorem signs_sampleMd5 : Signs sampleMd5 sampleKey := by
  have real_digits :
      (text "f90cad5f4c5a871069bebb3e68abe998").all isHexadecimalDigit = true := by decide +kernel
  refine ⟨?_, ?_, ?_⟩
  · intro message
    rw [sampleMd5]
    split_ifs
    · rfl
    · rw [List.length_take, List.length_append, List.length_replicate]
      omega
  · intro message
    rw [sampleMd5]
    split_ifs
    · exact real_digits
    · have digits : ((message.drop 32).flatMap hexOctet ++ List.replicate 32 48).all
          isHexadecimalDigit = true := by
        rw [List.all_append, all_hexOctet]
        rfl
      rw [List.all_eq_true] at digits ⊢
      intro c taken
      exact digits c (List.mem_of_mem_take taken)
  · -- The digits of the other messages end in zeros.
    have differs : ∀ octets : Octets, octets.length = 12 →
        text "f90cad5f4c5a871069bebb3e68abe998" ≠ octets.flatMap hexOctet ++ List.replicate 8 48 := by
      intro octets twelve same
      have last := congrArg (List.drop 24) same
      rw [List.drop_left' (by rw [length_flatMap_hexOctet, twelve])] at last
      exact absurd last (by decide +kernel)
    intro first second first_twelve second_twelve same
    by_cases first_sample : sampleKey ++ first = sampleMessage <;>
      by_cases second_sample : sampleKey ++ second = sampleMessage
    · exact List.append_cancel_left (first_sample.trans second_sample.symm)
    · rw [first_sample, sampleMd5_sampleMessage, sampleMd5_other second_twelve second_sample] at same
      exact absurd same (differs _ second_twelve)
    · rw [second_sample, sampleMd5_sampleMessage, sampleMd5_other first_twelve first_sample] at same
      exact absurd same.symm (differs _ first_twelve)
    · rw [sampleMd5_other first_twelve first_sample, sampleMd5_other second_twelve second_sample] at same
      exact flatMap_hexOctet_inj (List.append_cancel_right same)

/-- Some tenths of seconds. -/
def tenths (count : Fin (2 ^ 34)) : Time := ⟨count * 10 ^ 8, by omega⟩

/-- The nonce that is created at five seconds. -/
def sampleNonce : AdaString where
  first := 1
  last := 40
  octets := text "BQAAAQAAf90cad5f4c5a871069bebb3e68abe998"
  length_eq := rfl
  positive := fun _ => le_rfl
  last_le := by decide

theorem indexed_sampleNonce : Indexed sampleNonce := by
  rw [Indexed]
  decide

theorem octets_sampleNonce :
    sampleNonce.octets = (createNonce sampleMd5 sampleKey 0 (tenths 50)).1 := by
  decide +kernel

/-- The nonce is accepted after 300 seconds and refused after 301. -/
theorem checkNonce_sampleNonce :
    checkNonce sampleMd5 sampleKey sampleNonce (tenths 3050) = .ok true ∧
      checkNonce sampleMd5 sampleKey sampleNonce (tenths 3060) = .ok false := by
  obtain ⟨of_created, -⟩ := checkNonce_lifetime signs_sampleMd5
  constructor
  · exact of_created 0 (tenths 50) (tenths 3050) sampleNonce (by decide) indexed_sampleNonce
      octets_sampleNonce
  · exact of_created 0 (tenths 50) (tenths 3060) sampleNonce (by decide) indexed_sampleNonce
      octets_sampleNonce

/-- The nonce is accepted when 300.9 seconds have elapsed, and also by a program that has only created
another one. -/
theorem sampleNonce_accepted :
    sampleNonce.octets = (createNonce sampleMd5 sampleKey 0 (tenths 50)).1 ∧
      nonceExpiration * 10 ^ 9 < (tenths 3059).val - (tenths 50).val ∧
      sampleNonce.octets ∉ issued sampleMd5 sampleKey 0 [tenths 3059] ∧
      checkNonce sampleMd5 sampleKey sampleNonce (tenths 3059) = .ok true := by
  refine ⟨octets_sampleNonce, by decide, by decide +kernel, by decide +kernel⟩

end Digest
end AdaWebServer

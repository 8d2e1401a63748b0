import AdaWebServer.Http2.Hpack.Encode
import AdaWebServer.Http2.Hpack.HuffmanCode

/-!
# Integers and string literals

`Get_Integer` computes the encoded integer modulo `2 ^ 32`, unless so many octets follow that its
shift count overflows.  `Send` fails on an empty string and on a string whose Huffman coding is too
long; what it sends is read back by `Get_String_Literal` when the array of the literal fits on the
stack and the Huffman decoder does not take the coding for an end of string.
-/

namespace AdaWebServer
namespace Http2
namespace Hpack

/-! ## Integers -/

/-- Outcome of reading the octets of an integer after a full prefix. -/
theorem getContinuation_eq {fault : Option Exn} {result k : Nat} {octets : Octets}
    (k_le : k ≤ naturalLast) :
    Decode.getContinuation fault result k octets =
      if k + 7 * PrefixInteger.continuationRun octets ≤ naturalLast then
        match PrefixInteger.readContinuation octets with
        | some (higher, rest) => .ok ((result + 2 ^ k * higher) % 2 ^ 32, rest)
        | none => Decode.endOfOctets fault
      else
        .error .constraintError := by
  induction octets generalizing result k with
  | nil => exact (if_pos k_le).symm
  | cons b octets ih =>
      have shifted : (result + 2 ^ k % 2 ^ 32 * (b.toNat % 128)) % 2 ^ 32 =
          (result + 2 ^ k * (b.toNat % 128)) % 2 ^ 32 := by
        rw [Nat.add_mod, Nat.mul_mod, Nat.mod_mod, ← Nat.mul_mod, ← Nat.add_mod]
      rw [Decode.getContinuation, PrefixInteger.continuationRun, PrefixInteger.readContinuation]
      by_cases stop : b.toNat < 128
      · rw [if_pos stop, if_pos stop]
        by_cases small : k + 7 ≤ naturalLast
        · rw [natural_of_le small, ok_bind, if_pos (by exact UInt8.lt_iff_toNat_lt.mpr stop),
            if_pos (by omega), shifted, Nat.mod_eq_of_lt stop]
          rfl
        · rw [natural_of_gt (not_le.mp small), if_neg (by omega)]
          rfl
      · rw [if_neg stop, if_neg stop]
        by_cases small : k + 7 ≤ naturalLast
        · rw [natural_of_le small, ok_bind, if_neg (by rw [UInt8.lt_iff_toNat_lt]; exact stop),
            ih small, shifted]
          have count : k + 7 + 7 * PrefixInteger.continuationRun octets =
              k + 7 * (PrefixInteger.continuationRun octets + 1) := by ring
          rw [count]
          split
          · cases PrefixInteger.readContinuation octets with
            | none => rfl
            | some result' =>
                simp only [Option.map_some]
                congr 2
                rw [Nat.mod_add_mod, pow_add, Nat.mul_add, Nat.mul_assoc, Nat.add_assoc,
                  show 2 ^ 7 = 128 from rfl]
          · rfl
        · rw [natural_of_gt (not_le.mp small), if_neg (by omega)]
          rfl

/-- So many octets follow a full prefix that the shift count overflows. -/
def ShiftOverflow (n : Nat) (byte : Octet) (rest : Octets) : Prop :=
  byte.toNat % 2 ^ n = 2 ^ n - 1 ∧ naturalLast < 7 * PrefixInteger.continuationRun rest

instance (n : Nat) (byte : Octet) (rest : Octets) : Decidable (ShiftOverflow n byte rest) :=
  inferInstanceAs (Decidable (_ ∧ _))

theorem getInteger_overflow {fault : Option Exn} {n : Nat} {byte : Octet} {rest : Octets}
    (overflow : ShiftOverflow n byte rest) :
    Decode.getInteger fault n byte rest = .error .constraintError := by
  rw [Decode.getInteger, if_pos overflow.1, getContinuation_eq (Nat.zero_le _), if_neg]
  have := overflow.2
  omega

/-- `Get_Integer` reads the integer modulo `2 ^ 32`. -/
theorem getInteger_eq {fault : Option Exn} {n : Nat} {byte : Octet} {rest : Octets}
    (narrow : n ≤ 8) (within : ¬ ShiftOverflow n byte rest) :
    Decode.getInteger fault n byte rest =
      match PrefixInteger.read n byte rest with
      | some (number, rest) => .ok (number % 2 ^ 32, rest)
      | none => Decode.endOfOctets fault := by
  rw [Decode.getInteger, PrefixInteger.read]
  by_cases full : byte.toNat % 2 ^ n = 2 ^ n - 1
  · have counted : ¬ naturalLast < 7 * PrefixInteger.continuationRun rest :=
      fun large => within ⟨full, large⟩
    rw [if_pos full, if_pos full, getContinuation_eq (Nat.zero_le _), if_pos (by omega)]
    cases PrefixInteger.readContinuation rest with
    | none => rfl
    | some result => simp
  · have small : byte.toNat % 2 ^ n < 2 ^ 32 :=
      lt_of_lt_of_le (Nat.mod_lt _ (by positivity)) (Nat.pow_le_pow_right (by decide) (by omega))
    rw [if_neg full, if_neg full]
    simp only [Nat.mod_eq_of_lt small]

/-- Octets of an integer, as an octet with the flag bits and the octets that follow it. -/
structure SentInteger (i : Nat) (flags : Octet) (n : Nat) (octets : Octets) : Prop where
  /-- The octets start with one that has the flag bits. -/
  starts : ∃ byte tail, octets = byte :: tail ∧ byte.toNat / 2 ^ n = flags.toNat / 2 ^ n ∧
    byte.toNat % 2 ^ n = min i (2 ^ n - 1) ∧
    ∀ fault rest, Decode.getInteger fault n byte (tail ++ rest) = .ok (i, rest)

/-- The flag bits leave the low-order `n` bits clear. -/
structure Clear (flags : Octet) (n : Nat) : Prop where
  low : flags.toNat % 2 ^ n = 0
  fits : flags.toNat + 2 ^ n ≤ 256

theorem clear_iff {flags : Octet} {n : Nat} :
    Clear flags n ↔ flags.toNat % 2 ^ n = 0 ∧ flags.toNat + 2 ^ n ≤ 256 :=
  ⟨fun clear => ⟨clear.1, clear.2⟩, fun ⟨h₁, h₂⟩ => ⟨h₁, h₂⟩⟩

instance (flags : Octet) (n : Nat) : Decidable (Clear flags n) := decidable_of_iff' _ clear_iff

/-- Flag bits and low-order bits are separated by division. -/
private theorem Clear.split {flags : Octet} {n v : Nat} (clear : Clear flags n) (small : v < 2 ^ n) :
    (UInt8.ofNat (flags.toNat + v)).toNat / 2 ^ n = flags.toNat / 2 ^ n ∧
      (UInt8.ofNat (flags.toNat + v)).toNat % 2 ^ n = v := by
  have room : 0 < 2 ^ n := by positivity
  have fits := clear.fits
  have octet_value : (UInt8.ofNat (flags.toNat + v)).toNat = flags.toNat + v := by
    rw [UInt8.toNat_ofNat']
    exact Nat.mod_eq_of_lt (by omega)
  have multiple : flags.toNat = 2 ^ n * (flags.toNat / 2 ^ n) := by
    have := Nat.div_add_mod flags.toNat (2 ^ n)
    have := clear.low
    omega
  rw [octet_value]
  constructor
  · rw [multiple, Nat.mul_add_div room, Nat.div_eq_of_lt small, Nat.mul_div_cancel_left _ room,
      Nat.add_zero]
  · rw [Nat.add_mod, clear.low, Nat.zero_add, Nat.mod_mod, Nat.mod_eq_of_lt small]

/-- An encoded integer is read back by `Get_Integer`. -/
theorem sentInteger_encode {i n : Nat} {flags : Octet} (clear : Clear flags n)
    (small : i ≤ naturalLast) :
    SentInteger i flags n (PrefixInteger.encode n flags.toNat i) := by
  have room : 0 < 2 ^ n := by positivity
  have fits := clear.fits
  constructor
  unfold PrefixInteger.encode
  split
  · next short =>
      obtain ⟨high, low⟩ := clear.split (v := i) (by omega)
      refine ⟨_, [], rfl, high, ?_, ?_⟩
      · rw [low]
        omega
      · intro fault rest
        rw [Decode.getInteger, low, if_neg (by omega)]
        rfl
  · next long =>
      obtain ⟨high, low⟩ := clear.split (v := 2 ^ n - 1) (by omega)
      refine ⟨_, _, rfl, high, ?_, ?_⟩
      · rw [low]
        omega
      · intro fault rest
        have bound : PrefixInteger.continuationRun
            (PrefixInteger.continuation (i - (2 ^ n - 1)) ++ rest) ≤ 5 :=
          PrefixInteger.continuationRun_continuation_le
            (by simp only [naturalLast] at small; omega) rest
        rw [Decode.getInteger, low, if_pos rfl,
          getContinuation_eq (Nat.zero_le _), if_pos (by simp only [naturalLast]; omega),
          PrefixInteger.readContinuation_continuation]
        simp only [naturalLast] at small
        simp only [pow_zero, Nat.one_mul]
        rw [Nat.mod_eq_of_lt (by omega)]
        congr 2
        omega

private theorem or_of_clear {flags : Octet} {n v : Nat} (clear : Clear flags n)
    (small : v < 2 ^ n) : flags ||| UInt8.ofNat v = UInt8.ofNat (flags.toNat + v) := by
  have fits := clear.fits
  have multiple : flags.toNat = 2 ^ n * (flags.toNat / 2 ^ n) := by
    have := Nat.div_add_mod flags.toNat (2 ^ n)
    have := clear.low
    omega
  apply UInt8.toNat_inj.mp
  rw [UInt8.toNat_or, UInt8.toNat_ofNat', UInt8.toNat_ofNat', Nat.mod_eq_of_lt (by omega),
    Nat.mod_eq_of_lt (by omega), multiple, ← Nat.two_pow_add_eq_or_of_lt small]

/-- `Send_Integer` encodes a `Positive`. -/
theorem sendInteger_eq {i n : Nat} {flags : Octet} (clear : Clear flags n) (nonzero : 1 ≤ i)
    (small : i ≤ naturalLast) :
    Encode.sendInteger i flags n = .ok (PrefixInteger.encode n flags.toNat i) := by
  have room : 0 < 2 ^ n := by positivity
  rw [Encode.sendInteger, positive_of_le nonzero small, ok_bind, PrefixInteger.encode]
  simp only []
  split
  · rw [or_of_clear clear (by omega)]
    rfl
  · rw [or_of_clear clear (by omega)]
    rfl

/-- What `Send_Integer` sends is read back by `Get_Integer`. -/
theorem sendInteger_spec {i n : Nat} {flags : Octet} (clear : Clear flags n) (nonzero : 1 ≤ i)
    (small : i ≤ naturalLast) :
    ∃ octets, Encode.sendInteger i flags n = .ok octets ∧ SentInteger i flags n octets :=
  ⟨_, sendInteger_eq clear nonzero small, sentInteger_encode clear small⟩

/-- `Send_Integer` sends nothing but a `Positive`. -/
theorem sendInteger_bounds {i n : Nat} {flags : Octet} {octets : Octets}
    (sent : Encode.sendInteger i flags n = .ok octets) : 1 ≤ i ∧ i ≤ naturalLast := by
  by_contra invalid
  rw [Encode.sendInteger, positive, if_neg invalid] at sent
  cases sent

/-! ## String literals -/

/-- The Huffman coding of the string is shorter than the string. -/
def Shortened (str : Text) : Prop := (Huffman.coded str).length < str.length

instance (str : Text) : Decidable (Shortened str) := inferInstanceAs (Decidable (_ < _))

/-- The octets of the literal of a string. -/
def payload (str : Text) : Octets := if Shortened str then Huffman.coded str else str

/-- The encoder can send the string: it is not empty, the result array of the Huffman encoder fits on
the stack and is large enough, and the length of the literal is a `Positive`. -/
structure Sent (stack : Nat) (str : Text) : Prop where
  nonempty : str ≠ []
  array_le : str.length + 3 ≤ stack
  coded_le : (Huffman.coded str).length ≤ str.length + 3
  payload_le : (payload str).length ≤ naturalLast

/-- The length of the result array of the Huffman decoder is a `Natural` and fits on the stack. -/
def ResultFits (stack length : Nat) : Prop := length * 3 ≤ naturalLast ∧ length * 3 ≤ stack

instance (stack length : Nat) : Decidable (ResultFits stack length) :=
  inferInstanceAs (Decidable (_ ∧ _))

/-- The decoder reads the literal back: it fits on the stack, and the Huffman decoder neither takes
it for an end of string nor finds its result too long. -/
structure ReadBack (stack : Nat) (str : Text) : Prop where
  on_stack : (payload str).length ≤ stack
  no_eos : Shortened str → Huffman.eosFound 0 (Huffman.coded str) = false
  result_le : Shortened str → ResultFits stack (Huffman.coded str).length

theorem sent_iff {stack : Nat} {str : Text} : Sent stack str ↔ str ≠ [] ∧ str.length + 3 ≤ stack ∧
    (Huffman.coded str).length ≤ str.length + 3 ∧ (payload str).length ≤ naturalLast :=
  ⟨fun sent => ⟨sent.1, sent.2, sent.3, sent.4⟩, fun ⟨h₁, h₂, h₃, h₄⟩ => ⟨h₁, h₂, h₃, h₄⟩⟩

theorem readBack_iff {stack : Nat} {str : Text} : ReadBack stack str ↔
    (payload str).length ≤ stack ∧ (Shortened str → Huffman.eosFound 0 (Huffman.coded str) = false) ∧
      (Shortened str → ResultFits stack (Huffman.coded str).length) :=
  ⟨fun back => ⟨back.1, back.2, back.3⟩, fun ⟨h₁, h₂, h₃⟩ => ⟨h₁, h₂, h₃⟩⟩

instance (stack : Nat) (str : Text) : Decidable (Sent stack str) := decidable_of_iff' _ sent_iff

instance (stack : Nat) (str : Text) : Decidable (ReadBack stack str) :=
  decidable_of_iff' _ readBack_iff

theorem coded_ne_nil {str : Text} (nonempty : str ≠ []) : Huffman.coded str ≠ [] := by
  obtain ⟨padding, _, scanned⟩ := Huffman.scan_coded str
  intro empty
  rw [empty] at scanned
  simp only [BitString.ofOctets_nil, PrefixCode.CodeTree.scan, Option.some.injEq,
    PrefixCode.CodeTree.Progress.mk.injEq] at scanned
  exact nonempty scanned.1.symm

theorem payload_ne_nil {str : Text} (nonempty : str ≠ []) : payload str ≠ [] := by
  unfold payload
  split
  · exact coded_ne_nil nonempty
  · exact nonempty

/-- Flag bits of the literal of a string. -/
def literalFlags (str : Text) : Octet := if Shortened str then 0x80 else 0

/-- `Send` sends the length of the literal and the literal. -/
theorem send_eq (stack : Nat) (str : Text) :
    Encode.send stack str =
      if stack < str.length + 3 then
        .error .storageError
      else if (Huffman.coded str).length ≤ str.length + 3 then
        Encode.sendInteger (payload str).length (literalFlags str) 7 >>= fun length =>
          .ok (length ++ payload str)
      else
        .error .constraintError := by
  rw [Encode.send, Huffman.encodeOn]
  by_cases array_le : stack < str.length + 3
  · rw [if_pos array_le, if_pos array_le]
    rfl
  · rw [if_neg array_le, if_neg array_le, Huffman.encode_eq]
    by_cases coded_le : (Huffman.coded str).length ≤ str.length + 3
    · rw [if_pos coded_le, if_pos coded_le, ok_bind]
      by_cases shortened : (Huffman.coded str).length < str.length
      · simp [payload, literalFlags, Shortened, shortened]
      · simp [payload, literalFlags, Shortened, shortened]
    · rw [if_neg coded_le, if_neg coded_le]
      rfl

/-- `Send` fails on the strings that cannot be sent. -/
theorem send_eq_error {stack : Nat} {str : Text} (unsent : ¬ Sent stack str) :
    ∃ exn, Encode.send stack str = .error exn := by
  rw [send_eq]
  by_cases array_le : stack < str.length + 3
  · exact ⟨_, if_pos array_le⟩
  · rw [if_neg array_le]
    by_cases coded_le : (Huffman.coded str).length ≤ str.length + 3
    · have invalid : ¬ (1 ≤ (payload str).length ∧ (payload str).length ≤ naturalLast) := by
        rintro ⟨occupied, payload_le⟩
        refine unsent ⟨?_, not_lt.mp array_le, coded_le, payload_le⟩
        rintro rfl
        exact absurd occupied (by decide)
      rw [if_pos coded_le, Encode.sendInteger, positive, if_neg invalid]
      exact ⟨_, rfl⟩
    · exact ⟨_, if_neg coded_le⟩

theorem sent_of_send {stack : Nat} {str : Text} {octets : Octets}
    (sent : Encode.send stack str = .ok octets) : Sent stack str := by
  by_contra unsent
  obtain ⟨exn, raised⟩ := send_eq_error unsent
  rw [raised] at sent
  cases sent

/-- Octets of a string literal, and what the decoder makes of them. -/
structure SentLiteral (str : Text) (octets : Octets) : Prop where
  /-- The decoder reads the string back when it can. -/
  read_back : ∀ {stack : Nat}, ReadBack stack str → ∀ fault rest,
    Decode.getStringLiteral fault stack (octets ++ rest) = .ok (str, rest)
  /-- Otherwise it raises. -/
  refused : ∀ {stack : Nat}, ¬ ReadBack stack str → ∀ fault rest,
    ∃ exn, Decode.getStringLiteral fault stack (octets ++ rest) = .error exn

/-- Reading a literal whose length and octets are given. -/
theorem getStringLiteral_of_sentInteger {flags : Octet} {octets str : Octets}
    (sent : SentInteger str.length flags 7 octets) (fault : Option Exn) (stack : Nat)
    (rest : Octets) :
    Decode.getStringLiteral fault stack (octets ++ str ++ rest) =
      if stack < str.length then .error .storageError
      else if 128 ≤ flags then (Huffman.decodeOn stack str).map (·, rest)
      else (natural str.length).map fun _ => (str, rest) := by
  obtain ⟨byte, tail, rfl, high, _, reads⟩ := sent.starts
  have marked : 128 ≤ byte ↔ 128 ≤ flags := by
    rw [UInt8.le_iff_toNat_le, UInt8.le_iff_toNat_le]
    simp only [UInt8.reduceToNat]
    omega
  have shape : byte :: tail ++ str ++ rest = byte :: (tail ++ (str ++ rest)) := by simp
  rw [Decode.getStringLiteral, shape, Decode.getByteSafe, ok_bind]
  simp only [reads, ok_bind]
  by_cases large : stack < str.length
  · simp only [large, if_true]
  · simp only [large, if_false]
    rw [Decode.getOctets, if_pos (by simp), ok_bind]
    simp only [List.take_left, List.drop_left, marked]
    split
    · cases Huffman.decodeOn stack str <;> rfl
    · cases natural str.length <;> rfl

/-- The Huffman decoder reads a coding whose result fits on the stack. -/
theorem decodeOn_coded {stack : Nat} {str : Text} (nonempty : str ≠ []) :
    Huffman.decodeOn stack (Huffman.coded str) =
      if ResultFits stack (Huffman.coded str).length then Huffman.decode (Huffman.coded str)
      else if (Huffman.coded str).length * 3 ≤ naturalLast then .error .storageError
      else .error .constraintError := by
  have occupied : 1 ≤ (Huffman.coded str).length :=
    List.length_pos_of_ne_nil (coded_ne_nil nonempty)
  rw [Huffman.decodeOn]
  by_cases small : (Huffman.coded str).length * 3 ≤ naturalLast
  · rw [positive_of_le occupied (by omega), ok_bind, natural_of_le small, ok_bind, if_pos small]
    by_cases on_stack : (Huffman.coded str).length * 3 ≤ stack
    · rw [if_neg (not_lt.mpr on_stack), if_pos ⟨small, on_stack⟩]
    · rw [if_pos (not_le.mp on_stack), if_neg fun fits => on_stack fits.2]
  · rw [if_neg (fun fits => small fits.1), if_neg small]
    by_cases length_le : (Huffman.coded str).length ≤ naturalLast
    · rw [positive_of_le occupied length_le, ok_bind, natural_of_gt (not_le.mp small)]
      rfl
    · rw [positive_of_gt (not_le.mp length_le)]
      rfl

/-- The Huffman decoder inverts a shortened literal, or raises. -/
private theorem decode_shortened {stack : Nat} {str : Text} (nonempty : str ≠ [])
    (on_stack : (payload str).length ≤ stack) (shortened : Shortened str) :
    (ReadBack stack str → Huffman.decodeOn stack (Huffman.coded str) = .ok str) ∧
      (¬ ReadBack stack str →
        ∃ exn, Huffman.decodeOn stack (Huffman.coded str) = .error exn) := by
  rw [decodeOn_coded nonempty]
  constructor
  · intro back
    have fits := back.result_le shortened
    rw [if_pos fits, Huffman.decode_coded nonempty fits.1, back.no_eos shortened]
    rfl
  · intro unread
    by_cases fits : ResultFits stack (Huffman.coded str).length
    · have found : Huffman.eosFound 0 (Huffman.coded str) = true := by
        by_contra clear
        exact unread ⟨on_stack, fun _ => by simpa using clear, fun _ => fits⟩
      rw [if_pos fits, Huffman.decode_coded nonempty fits.1, found]
      exact ⟨_, rfl⟩
    · rw [if_neg fits]
      split
      · exact ⟨_, rfl⟩
      · exact ⟨_, rfl⟩

/-- `Send` sends a literal that the decoder reads back when it can. -/
theorem send_spec {sender : Nat} {str : Text} (sent : Sent sender str) :
    ∃ octets, Encode.send sender str = .ok octets ∧ SentLiteral str octets := by
  have occupied : 1 ≤ (payload str).length :=
    List.length_pos_of_ne_nil (payload_ne_nil sent.nonempty)
  have clear : Clear (literalFlags str) 7 := by
    unfold literalFlags
    split <;> decide
  obtain ⟨length, encoded, spec⟩ := sendInteger_spec clear occupied sent.payload_le
  rw [send_eq, if_neg (not_lt.mpr sent.array_le), if_pos sent.coded_le, encoded, ok_bind]
  refine ⟨_, rfl, ?_, ?_⟩
  · intro stack back fault rest
    have on_stack := back.on_stack
    rw [getStringLiteral_of_sentInteger spec, if_neg (by omega)]
    by_cases shortened : Shortened str
    · rw [if_pos (by simp [literalFlags, shortened]), payload, if_pos shortened,
        (decode_shortened sent.nonempty on_stack shortened).1 back]
      rfl
    · rw [if_neg (by simp [literalFlags, shortened]), natural_of_le sent.payload_le, payload,
        if_neg shortened]
      rfl
  · intro stack unread fault rest
    rw [getStringLiteral_of_sentInteger spec]
    by_cases on_stack : stack < (payload str).length
    · exact ⟨_, if_pos on_stack⟩
    · rw [if_neg on_stack]
      by_cases shortened : Shortened str
      · obtain ⟨exn, raised⟩ :=
          (decode_shortened sent.nonempty (not_lt.mp on_stack) shortened).2 unread
        rw [if_pos (by simp [literalFlags, shortened]), payload, if_pos shortened, raised]
        exact ⟨exn, rfl⟩
      · exact absurd ⟨not_lt.mp on_stack, fun short => absurd short shortened,
          fun short => absurd short shortened⟩ unread

/-! ## Literals read where none was sent -/

/-- Read as a string literal, the octets do not begin with an empty one. -/
def NoEmptyLiteral (octets : Octets) : Prop :=
  ∃ byte tail, octets = byte :: tail ∧ ∀ fault rest length rest',
    Decode.getInteger fault 7 byte (tail ++ rest) = .ok (length, rest') → length ≠ 0

/-- A string read from such octets is not empty. -/
theorem getStringLiteral_ne_nil {octets : Octets} (start : NoEmptyLiteral octets)
    {fault : Option Exn} {stack : Nat} {rest rest' : Octets} {str : Text}
    (read : Decode.getStringLiteral fault stack (octets ++ rest) = .ok (str, rest')) :
    str ≠ [] := by
  obtain ⟨byte, tail, rfl, nonzero⟩ := start
  rw [List.cons_append, Decode.getStringLiteral, Decode.getByteSafe, ok_bind] at read
  simp only [bind_eq_ok_iff, Prod.exists] at read
  obtain ⟨length, afterLength, length_read, read⟩ := read
  have length_ne := nonzero fault rest length afterLength length_read
  split at read
  · cases read
  · simp only [bind_eq_ok_iff, Prod.exists] at read
    obtain ⟨octetsRead, afterOctets, octets_read, read⟩ := read
    split at read
    · simp only [bind_eq_ok_iff] at read
      obtain ⟨result, decoded, read⟩ := read
      cases read
      exact Huffman.decode_ne_nil (Huffman.decode_of_decodeOn decoded)
    · simp only [bind_eq_ok_iff] at read
      obtain ⟨_, _, read⟩ := read
      cases read
      unfold Decode.getOctets at octets_read
      split at octets_read
      · next enough =>
          cases octets_read
          intro empty
          have none_taken := congrArg List.length empty
          rw [List.length_take, Nat.min_eq_left enough] at none_taken
          exact length_ne none_taken
      · exact absurd octets_read Decode.endOfOctets_ne_ok

theorem noEmptyLiteral_literal (octets : Octets) : NoEmptyLiteral (0x40 :: octets) := by
  refine ⟨_, _, rfl, ?_⟩
  intro fault rest length rest' read
  cases read
  decide

theorem noEmptyLiteral_indexed {i : Nat} {octets : Octets} (nonzero : 1 ≤ i)
    (sent : SentInteger i 0x80 7 octets) : NoEmptyLiteral octets := by
  obtain ⟨byte, tail, rfl, _, _, reads⟩ := sent.starts
  refine ⟨byte, tail, rfl, ?_⟩
  intro fault rest length rest' read
  rw [reads] at read
  cases read
  omega

theorem noEmptyLiteral_indexedName {i : Nat} {octets : Octets} (small : i ≤ naturalLast)
    (sent : SentInteger i 0x40 6 octets) : NoEmptyLiteral octets := by
  obtain ⟨byte, tail, rfl, high, low, reads⟩ := sent.starts
  refine ⟨byte, tail, rfl, ?_⟩
  intro fault rest length rest' read
  have high : byte.toNat / 64 = 1 := high
  simp only [naturalLast] at small
  by_cases full : byte.toNat % 2 ^ 7 = 2 ^ 7 - 1
  · have full_name : byte.toNat % 2 ^ 6 = 2 ^ 6 - 1 := by omega
    have name_read := reads fault rest
    rw [Decode.getInteger, if_pos full_name, getContinuation_eq (Nat.zero_le _)] at name_read
    rw [Decode.getInteger, if_pos full, getContinuation_eq (Nat.zero_le _)] at read
    split_ifs at read
    · rw [if_pos (by assumption)] at name_read
      cases found : PrefixInteger.readContinuation (tail ++ rest) with
      | none =>
          rw [found] at read
          exact absurd read Decode.endOfOctets_ne_ok
      | some result =>
          rw [found] at read name_read
          simp only [Except.ok.injEq, Prod.mk.injEq] at read name_read
          omega
  · rw [Decode.getInteger, if_neg full] at read
    cases read
    omega

end Hpack
end Http2
end AdaWebServer

import AdaWebServer.Translator.Base64Decode
import Mathlib.Data.List.Induction

/-!
# The versions of the Base64 codec

Each mode has an alphabet, and the mode `URL` has no padding.  The versions of the encoder differ in
how they walk over their data.  The decoder of unbounded strings takes the padding away in place of
the last bits, the decoder of arrays takes it away behind them.
-/

namespace AdaWebServer
namespace Translator

open Http2 (Exn Octet Octets Text text)

/-! ## Encoders -/

/-- `Base64_Mode`. -/
inductive Base64Mode where
  | mime
  | url
  deriving DecidableEq

namespace Base64Mode

/-- `Base64`, the characters of a mode. -/
def chars : Base64Mode → List UInt8
  | mime => base64
  | url => text "ABCDEFGHIJKLMNOPQRSTUVWXYZabcdefghijklmnopqrstuvwxyz0123456789-_"

/-- `State.To_Char`, for six bits. -/
def toChar (mode : Base64Mode) (bits : UInt8) : UInt8 := mode.chars.getD bits.toNat 0

end Base64Mode

namespace EncodingState

/-- `Add`, in a mode. -/
def addIn (mode : Base64Mode) (state : EncodingState) (e : UInt8) : Text × EncodingState :=
  let state := { state with count := state.count + 1, last := state.last + 1 }
  match state.currentState with
  | .one => ([mode.toChar ((e >>> (2 : UInt8)) &&& 0x3F)], { state with currentState := .two, prevE := e })
  | .two =>
      ([mode.toChar (((state.prevE <<< (4 : UInt8)) &&& 0x30) ||| ((e >>> (4 : UInt8)) &&& 0xF))],
        { state with currentState := .three, prevE := e })
  | .three =>
      ([mode.toChar (((state.prevE <<< (2 : UInt8)) &&& 0x3C) ||| ((e >>> (6 : UInt8)) &&& 0x3)),
          mode.toChar (e &&& 0x3F)],
        { state with last := state.last + 1, currentState := .one, prevE := e })

/-- The character that `Flush` adds for the last bits. -/
def restIn (mode : Base64Mode) (state : EncodingState) : Text :=
  match state.currentState with
  | .one => []
  | .two => [mode.toChar ((state.prevE <<< (4 : UInt8)) &&& 0x30)]
  | .three => [mode.toChar ((state.prevE <<< (2 : UInt8)) &&& 0x3C)]

/-- `Flush`, in a mode: only the alphabet of `MIME` is padded. -/
def flushIn (mode : Base64Mode) (state : EncodingState) : Text :=
  let last := state.last + (state.restIn mode).length + 1
  let encodedLength := 4 * ((state.count + 2) / 3)
  state.restIn mode ++
    if mode = .mime then List.replicate (encodedLength + 1 - last) 61 else []

/-- The loop of `Base64_Encode`. -/
def addAllIn (mode : Base64Mode) : EncodingState → Octets → Text
  | state, [] => state.flushIn mode
  | state, e :: data => (state.addIn mode e).1 ++ (state.addIn mode e).2.addAllIn mode data

end EncodingState

/-- `Base64_Encode` of an array. -/
def base64EncodeArray (mode : Base64Mode) (data : Octets) : Text :=
  ({} : EncodingState).addAllIn mode data

/-- `To_Stream_Element_Array`: the octets of the characters. -/
def toStreamElementArray (data : Text) : Octets := data

/-- `To_String`: the characters of the octets. -/
def toString (data : Octets) : Text := data

/-- `Base64_Encode` of a string. -/
def base64EncodeString (mode : Base64Mode) (data : Text) : Text :=
  base64EncodeArray mode (toStreamElementArray data)

/-- One turn of the loop of the `Base64_Encode` of an unbounded string. -/
def encodeNext (mode : Base64Mode) (result : Text × EncodingState) (ch : UInt8) :
    Text × EncodingState :=
  (result.1 ++ (result.2.addIn mode ch).1, (result.2.addIn mode ch).2)

/-- `Base64_Encode` of an unbounded string. -/
def base64EncodeUnbounded (mode : Base64Mode) (data : Text) : Text :=
  let (b64Data, s) := data.foldl (encodeNext mode) ([], {})
  b64Data ++ s.flushIn mode

theorem base64EncodeUnbounded_eq (mode : Base64Mode) (data : Text) :
    base64EncodeUnbounded mode data = base64EncodeArray mode data := by
  have run : ∀ (data b64Data : Text) (state : EncodingState),
      (data.foldl (encodeNext mode) (b64Data, state)).1 ++
          (data.foldl (encodeNext mode) (b64Data, state)).2.flushIn mode =
        b64Data ++ state.addAllIn mode data := by
    intro data
    induction data with
    | nil => exact fun _ _ => rfl
    | cons ch data ih =>
        intro b64Data state
        rw [List.foldl_cons, encodeNext, ih, EncodingState.addAllIn, List.append_assoc]
  exact run data [] {}

/-! ## Decoders -/

/-- `Base64_Decode` of a string into an array, which has as many elements as the string. -/
def base64DecodeArray (data : Text) : Except Exn Octets :=
  let (octets, state) := ({} : DecodingState).addAll data
  let result := octets ++ state.flush
  if result.length ≤ data.length then
    .ok (result.take (result.length - state.pad))
  else
    .error .constraintError

/-- `Base64_Decode` of a string into a string. -/
def base64DecodeString (data : Text) : Except Exn Text := (base64DecodeArray data).map toString

/-- One turn of the loop of the `Base64_Decode` of an unbounded string. -/
def decodeNext (result : Text × DecodingState) (ch : UInt8) : Text × DecodingState :=
  (result.1 ++ (result.2.add ch).1, (result.2.add ch).2)

/-- `Base64_Decode` of an unbounded string: the padding is deleted, from an index that is a
`Positive`. -/
def base64DecodeUnbounded (data : Text) : Except Exn Text :=
  let (result, s) := data.foldl decodeNext ([], {})
  if s.pad ≠ 0 then
    if s.pad ≤ result.length then
      .ok (result.take (result.length - s.pad))
    else
      .error .constraintError
  else
    .ok (result ++ s.flush)

theorem foldl_decodeNext (data result : Text) (state : DecodingState) :
    data.foldl decodeNext (result, state) =
      (result ++ (state.addAll data).1, (state.addAll data).2) := by
  induction data generalizing result state with
  | nil =>
      rw [DecodingState.addAll, List.append_nil]
      rfl
  | cons ch data ih =>
      rw [List.foldl_cons, decodeNext, ih]
      simp only [DecodingState.addAll, List.append_assoc]

/-! ## Counting the characters -/

/-- What has been decoded, by the number of characters that belong to the code. -/
structure Passed (data : Text) (octets : Octets) (state : DecodingState) : Prop where
  pad : state.pad = data.count 61
  j : state.j = 18 - 6 * ((proper data).length % 4 : Nat)
  octets : octets.length = 3 * ((proper data).length / 4)

/-- What a character of the code does to the counts. -/
theorem DecodingState.add_own (state : DecodingState) {ch : UInt8} (own : isForeign ch = false) :
    (state.add ch).2.pad = state.pad + (if ch = 61 then 1 else 0) ∧
      (state.add ch).2.j = (if state.j - 6 < 0 then 18 else state.j - 6) ∧
      (state.add ch).1.length = if state.j - 6 < 0 then 3 else 0 := by
  rw [DecodingState.add, own, if_neg Bool.false_ne_true]
  by_cases padding : ch = 61
  · simp only [if_pos padding]
    split <;> exact ⟨rfl, rfl, rfl⟩
  · simp only [if_neg padding]
    split <;> exact ⟨rfl, rfl, rfl⟩

theorem Passed.add {data : Text} {octets : Octets} {state : DecodingState}
    (passed : Passed data octets state) (ch : UInt8) :
    Passed (data ++ [ch]) (octets ++ (state.add ch).1) (state.add ch).2 := by
  obtain ⟨pad_eq, j_eq, octets_eq⟩ := passed
  have count_eq : (data ++ [ch]).count 61 = data.count 61 + if ch = 61 then 1 else 0 := by
    rw [List.count_append, List.count_singleton]
    simp only [beq_iff_eq]
  cases own : isForeign ch with
  | true =>
      have other : ch ≠ 61 := by
        rintro rfl
        exact absurd own (by decide)
      have unchanged : state.add ch = ([], state) := if_pos own
      have proper_eq : proper (data ++ [ch]) = proper data := by
        rw [proper_append]
        simp [proper, own]
      rw [unchanged]
      refine ⟨?_, ?_, ?_⟩
      · rw [count_eq, if_neg other, ← pad_eq]
        rfl
      · rw [j_eq, proper_eq]
      · rw [proper_eq, List.append_nil, octets_eq]
  | false =>
      have length_eq : (proper (data ++ [ch])).length = (proper data).length + 1 := by
        rw [proper_append, List.length_append]
        simp [proper, own]
      obtain ⟨pad_next, j_next, added⟩ := state.add_own own
      refine ⟨?_, ?_, ?_⟩
      · rw [pad_next, count_eq, pad_eq]
      · rw [j_next, j_eq, length_eq]
        split <;> omega
      · rw [List.length_append, added, octets_eq, length_eq, j_eq]
        split <;> omega

theorem passed_addAll (data : Text) :
    Passed data (({} : DecodingState).addAll data).1 (({} : DecodingState).addAll data).2 := by
  induction data using List.reverseRecOn with
  | nil => exact ⟨rfl, rfl, rfl⟩
  | append_singleton data ch ih =>
      have last : ∀ state : DecodingState, state.addAll [ch] = state.add ch := fun state =>
        Prod.ext (List.append_nil _) rfl
      rw [DecodingState.addAll_append, last]
      exact ih.add ch

/-- Octets that are left in an incomplete group. -/
theorem Passed.length_flush {data : Text} {octets : Octets} {state : DecodingState}
    (passed : Passed data octets state) :
    state.flush.length = ((proper data).length % 4 + 1) / 2 := by
  have j_eq := passed.j
  have bound := Nat.mod_lt (proper data).length (by decide : 0 < 4)
  rw [DecodingState.flush, List.length_append]
  split_ifs <;> simp only [List.length_cons, List.length_nil] <;> omega

theorem base64DecodeArray_eq (data : Text) : base64DecodeArray data = .ok (base64Decode data) := by
  have passed := passed_addAll data
  have flush_eq := passed.length_flush
  have octets_eq := passed.octets
  have proper_le : (proper data).length ≤ data.length := List.length_filter_le _ _
  rw [base64DecodeArray]
  simp only
  rw [if_pos (by rw [List.length_append]; omega)]
  rfl

/-! ## Agreement of the decoders -/

/-- The versions of the decoder return the same octets. -/
def DecodersAgree (data : Text) : Prop :=
  base64DecodeArray data = base64DecodeUnbounded data ∧
    base64DecodeString data = base64DecodeUnbounded data

instance (data : Text) : Decidable (DecodersAgree data) :=
  inferInstanceAs (Decidable (_ ∧ _))

/-- The characters of the code are in groups of four, each of which has three for padding at most
on the average. -/
def WholeGroups (data : Text) : Prop :=
  (proper data).length % 4 = 0 ∧ data.count 61 ≤ 3 * ((proper data).length / 4)

instance (data : Text) : Decidable (WholeGroups data) :=
  inferInstanceAs (Decidable (_ ∧ _))

theorem base64DecodeUnbounded_eq_iff (data : Text) :
    base64DecodeUnbounded data = .ok (base64Decode data) ↔ 61 ∉ data ∨ WholeGroups data := by
  have passed := passed_addAll data
  have flush_eq := passed.length_flush
  have octets_eq := passed.octets
  have pad_eq := passed.pad
  rw [base64DecodeUnbounded, foldl_decodeNext, base64Decode, WholeGroups]
  simp only [List.nil_append]
  by_cases unpadded : (({} : DecodingState).addAll data).2.pad = 0
  · have none : 61 ∉ data := by
      rw [unpadded] at pad_eq
      exact List.count_eq_zero.mp pad_eq.symm
    rw [if_neg (not_not.mpr unpadded), unpadded, Nat.sub_zero, List.take_length]
    exact iff_of_true rfl (.inl none)
  · have some_padding : ¬ 61 ∉ data := by
      intro none
      rw [List.count_eq_zero.mpr none] at pad_eq
      exact unpadded pad_eq
    rw [if_pos unpadded, or_iff_right some_padding, ← octets_eq, ← pad_eq]
    constructor
    · intro same
      split at same
      · next within =>
          have lengths := congrArg List.length (Except.ok.inj same)
          rw [List.length_take, List.length_take, List.length_append] at lengths
          exact ⟨by omega, within⟩
      · cases same
    · rintro ⟨whole, within⟩
      have nothing_left : (({} : DecodingState).addAll data).2.flush = [] := by
        rw [← List.length_eq_zero_iff, flush_eq, whole]
      rw [if_pos within, nothing_left, List.append_nil]

/-- The decoders agree exactly on texts without padding and on those in whole groups. -/
theorem decodersAgree_iff (data : Text) : DecodersAgree data ↔ 61 ∉ data ∨ WholeGroups data := by
  rw [DecodersAgree, base64DecodeString, base64DecodeArray_eq]
  constructor
  · rintro ⟨same, -⟩
    exact (base64DecodeUnbounded_eq_iff data).mp same.symm
  · intro supported
    have same := (base64DecodeUnbounded_eq_iff data).mpr supported
    exact ⟨same.symm, same.symm⟩

/-- A padded group that is not whole: one decoder returns an octet, the other one raises. -/
theorem incomplete_padding : ¬ DecodersAgree (text "TQ=") := by
  decide +kernel

end Translator
end AdaWebServer

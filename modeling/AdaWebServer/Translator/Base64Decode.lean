import AdaWebServer.Translator.Base64

/-!
# Decoding Base64

The decoder collects four characters before it returns three octets, and passes over the characters that
do not belong to the code.  A text may be decoded line by line as long as the lines hold whole groups.
-/

namespace AdaWebServer
namespace Translator

open Http2 (Octet Octets Text text)

/-- `Base64_Values`. -/
def base64Value (ch : UInt8) : Option UInt32 :=
  if ch = 45 then some 62
  else if ch = 95 then some 63
  else (base64.idxOf? ch).map Nat.toUInt32

/-- The character is passed over by the decoder. -/
def isForeign (ch : UInt8) : Bool := ch ≠ 61 && (base64Value ch).isNone

/-- `Decoding_State`. -/
structure DecodingState where
  pad : Nat := 0
  group : UInt32 := 0
  j : Int := 18
  deriving DecidableEq

namespace DecodingState

/-- An octet of the group. -/
def octet (state : DecodingState) (shift : UInt32) : Octet := (state.group >>> shift).toUInt8

/-- `Add`: the octets that are added for a character. -/
def add (state : DecodingState) (ch : UInt8) : Octets × DecodingState :=
  if isForeign ch then ([], state)
  else
    let state :=
      if ch = 61 then { state with pad := state.pad + 1 }
      else
        { state with group :=
          state.group ||| (((base64Value ch).getD 0) <<< state.j.toNat.toUInt32) }
    let state := { state with j := state.j - 6 }
    if state.j < 0 then
      ([state.octet 16, state.octet 8, state.octet 0], { state with group := 0, j := 18 })
    else ([], state)

/-- `Flush`. -/
def flush (state : DecodingState) : Octets :=
  (if state.j ≤ 12 then [state.octet 16] else []) ++ if state.j = 0 then [state.octet 8] else []

/-- The loop of `Base64_Decode`. -/
def addAll : DecodingState → Text → Octets × DecodingState
  | state, [] => ([], state)
  | state, ch :: data =>
      let (octets, state) := state.add ch
      let (later, state) := state.addAll data
      (octets ++ later, state)

end DecodingState

/-- `Base64_Decode`. -/
def base64Decode (data : Text) : Octets :=
  let (octets, state) := ({} : DecodingState).addAll data
  (octets ++ state.flush).take ((octets ++ state.flush).length - state.pad)

/-! ## Whole groups -/

/-- The characters that belong to the code. -/
def proper (data : Text) : Text := data.filter fun ch => !isForeign ch

namespace DecodingState

theorem addAll_append (state : DecodingState) (data more : Text) :
    state.addAll (data ++ more) =
      ((state.addAll data).1 ++ ((state.addAll data).2.addAll more).1,
        ((state.addAll data).2.addAll more).2) := by
  induction data generalizing state with
  | nil => rfl
  | cons ch data ih =>
      simp only [List.cons_append, addAll, ih, List.append_assoc]

end DecodingState

theorem proper_append (data more : Text) : proper (data ++ more) = proper data ++ proper more :=
  List.filter_append _ _

example : base64Decode (text "TWFu") = text "Man" := by decide +kernel

example : base64Decode (text "TQ==") = text "M" := by decide +kernel

end Translator
end AdaWebServer

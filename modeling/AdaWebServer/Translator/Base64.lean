import AdaWebServer.Http2.Basic

/-!
# Base64

The encoder keeps the last octet and its place in a group of three.  What it returns is a whole number
of groups of four characters.
-/

namespace AdaWebServer
namespace Translator

open Http2 (Text Octets text)

/-- `Base64 (MIME)`. -/
def base64 : List UInt8 :=
  text "ABCDEFGHIJKLMNOPQRSTUVWXYZabcdefghijklmnopqrstuvwxyz0123456789+/"

/-- `State.To_Char`, for six bits. -/
def toChar (bits : UInt8) : UInt8 := base64.getD bits.toNat 0

/-- Place in a group of three octets. -/
inductive GroupState where
  | one
  | two
  | three
  deriving DecidableEq

/-- `Encoding_State`. -/
structure EncodingState where
  last : Nat := 0
  currentState : GroupState := .one
  prevE : UInt8 := 0
  count : Nat := 0

namespace EncodingState

/-- `Add`: the characters that are added for an octet. -/
def add (state : EncodingState) (e : UInt8) : Text × EncodingState :=
  let state := { state with count := state.count + 1, last := state.last + 1 }
  match state.currentState with
  | .one => ([toChar ((e >>> (2 : UInt8)) &&& 0x3F)], { state with currentState := .two, prevE := e })
  | .two =>
      ([toChar (((state.prevE <<< (4 : UInt8)) &&& 0x30) ||| ((e >>> (4 : UInt8)) &&& 0xF))],
        { state with currentState := .three, prevE := e })
  | .three =>
      ([toChar (((state.prevE <<< (2 : UInt8)) &&& 0x3C) ||| ((e >>> (6 : UInt8)) &&& 0x3)),
          toChar (e &&& 0x3F)],
        { state with last := state.last + 1, currentState := .one, prevE := e })

/-- Whether `Flush` adds a character for the last bits, and which one. -/
def rest (state : EncodingState) : Text :=
  match state.currentState with
  | .one => []
  | .two => [toChar ((state.prevE <<< (4 : UInt8)) &&& 0x30)]
  | .three => [toChar ((state.prevE <<< (2 : UInt8)) &&& 0x3C)]

/-- `Flush`. -/
def flush (state : EncodingState) : Text :=
  let last := state.last + state.rest.length + 1
  let encodedLength := 4 * ((state.count + 2) / 3)
  state.rest ++ List.replicate (encodedLength + 1 - last) 61

/-- The loop of `Base64_Encode`. -/
def addAll : EncodingState → Octets → Text
  | state, [] => state.flush
  | state, e :: data => (state.add e).1 ++ (state.add e).2.addAll data

end EncodingState

/-- `Base64_Encode` in the mode `MIME`. -/
def base64Encode (data : Octets) : Text := ({} : EncodingState).addAll data

namespace EncodingState

/-- The number of characters agrees with the number of octets and the place in the group. -/
def Counts (state : EncodingState) : Prop :=
  match state.currentState with
  | .one => ∃ groups, state.count = 3 * groups ∧ state.last = 4 * groups
  | .two => ∃ groups, state.count = 3 * groups + 1 ∧ state.last = 4 * groups + 1
  | .three => ∃ groups, state.count = 3 * groups + 2 ∧ state.last = 4 * groups + 2

variable {state : EncodingState}

theorem Counts.add (counts : state.Counts) (e : UInt8) :
    (state.add e).2.Counts ∧ (state.add e).2.count = state.count + 1 ∧
      (state.add e).2.last = state.last + (state.add e).1.length := by
  obtain ⟨last, currentState, prevE, count⟩ := state
  cases currentState with
  | one =>
      obtain ⟨groups, count_eq, last_eq⟩ := counts
      exact ⟨⟨groups, congrArg (· + 1) count_eq, congrArg (· + 1) last_eq⟩, rfl, rfl⟩
  | two =>
      obtain ⟨groups, count_eq, last_eq⟩ := counts
      exact ⟨⟨groups, congrArg (· + 1) count_eq, congrArg (· + 1) last_eq⟩, rfl, rfl⟩
  | three =>
      obtain ⟨groups, count_eq, last_eq⟩ := counts
      exact ⟨⟨groups + 1, congrArg (· + 1) count_eq, congrArg (· + 2) last_eq⟩, rfl, rfl⟩

theorem Counts.length_flush (counts : state.Counts) :
    state.last + state.flush.length = 4 * ((state.count + 2) / 3) := by
  obtain ⟨last, currentState, prevE, count⟩ := state
  cases currentState with
  | one =>
      obtain ⟨groups, rfl, rfl⟩ := counts
      simp only [flush, rest, List.length_nil, List.length_append, List.length_replicate]
      omega
  | two =>
      obtain ⟨groups, rfl, rfl⟩ := counts
      simp only [flush, rest, List.length_cons, List.length_nil, List.length_append,
        List.length_replicate]
      omega
  | three =>
      obtain ⟨groups, rfl, rfl⟩ := counts
      simp only [flush, rest, List.length_cons, List.length_nil, List.length_append,
        List.length_replicate]
      omega

theorem Counts.length_addAll (counts : state.Counts) (data : Octets) :
    state.last + (state.addAll data).length = 4 * ((state.count + data.length + 2) / 3) := by
  induction data generalizing state with
  | nil => exact counts.length_flush
  | cons e data ih =>
      obtain ⟨counts', count_eq, last_eq⟩ := counts.add e
      have later := ih counts'
      rw [count_eq, last_eq] at later
      rw [addAll, List.length_append, List.length_cons, ← Nat.add_assoc, later]
      congr 3
      omega

end EncodingState

theorem length_base64Encode (data : Octets) :
    (base64Encode data).length = 4 * ((data.length + 2) / 3) := by
  have counts : ({} : EncodingState).Counts := ⟨0, rfl, rfl⟩
  have length := counts.length_addAll data
  rw [Nat.zero_add, Nat.zero_add] at length
  exact length

example : base64Encode (text "Man") = text "TWFu" := by decide +kernel

example : base64Encode (text "M") = text "TQ==" := by decide +kernel

end Translator
end AdaWebServer

import AdaWebServer.WebSocket.Delivery

/-!
# The reason of a close frame

`Close` writes the code of a close frame as it is and masks the reason from the first octet of the
key on.  Whoever unmasks the payload as a whole gets both back from a server, and from a client only
where its key is zero.
-/

namespace AdaWebServer
namespace WebSocket

open Http2 (Octet Octets Exn bigEndian octetsOf)

/-! ## Decoding -/

/-- The payload of a frame of at most 125 octets of payload, unmasked. -/
def unmaskedPayload (octets : Octets) : Octets :=
  let header := Header.ofOctets octets
  if header.mask then
    (MaskingKey.ofOctets ((octets.drop 2).take 4)).mask 0
      ((octets.drop 6).take header.payloadLength)
  else
    (octets.drop 2).take header.payloadLength

/-- The code and the reason in the payload of a close frame. -/
def closePayload (payload : Octets) : Option (Nat × Octets) :=
  if 2 ≤ payload.length then some (bigEndian (payload.take 2), payload.drop 2) else none

/-- The octets are a close frame with the given code and reason. -/
structure Conveys (octets : Octets) (code : Nat) (reason : Octets) : Prop where
  opcd : (Header.ofOctets octets).opcd = oConnectionClose
  fin : (Header.ofOctets octets).fin = true
  decoded : closePayload (unmaskedPayload octets) = some (code, reason)

/-- `Receive` has returned a close frame with the given code and reason. -/
def Reports (result : EStateM.Result Exn Object Octets) (code : Nat) (reason : Octets) : Prop :=
  match result with
  | .ok data object =>
      object.kind = .connectionClose ∧ object.errno = code ∧ data.drop 2 = reason
  | .error _ _ => False

/-- The code is one that `Receive` reports. -/
def IsReportedCode (code : Nat) : Prop :=
  IsLibraryError code ∨ (ErrorType.ofErrno code).IsValidCloseCode

instance (code : Nat) : Decidable (IsReportedCode code) := inferInstanceAs (Decidable (_ ∨ _))

/-- The mask leaves the octets at the first positions of the payload as they are. -/
def LeavesFirst (mask : Option MaskingKey) (count : Nat) : Prop :=
  ∀ key ∈ mask, ∀ position < count, key.at' position = 0

/-! ## Masks -/

private theorem xor_eq_self_iff (octet part : Octet) : octet ^^^ part = octet ↔ part = 0 := by
  constructor
  · intro same
    have undone := congrArg (octet ^^^ ·) same
    simpa [← UInt8.xor_assoc] using undone
  · rintro rfl
    exact UInt8.xor_zero

private theorem xor_injective (octet : Octet) : Function.Injective fun part => octet ^^^ part := by
  intro first second same
  have undone := congrArg (octet ^^^ ·) same
  simpa [← UInt8.xor_assoc] using undone

/-- Octets that are masked twice, the second time from another position on, come back where the key
is the same at both positions. -/
theorem MaskingKey.mask_mask_eq_self_iff (key : MaskingKey) (first second : Nat) (octets : Octets) :
    key.mask first (key.mask second octets) = octets ↔
      ∀ index < octets.length, key.at' (first + index) = key.at' (second + index) := by
  have combined : ∀ octet : Octet, Function.Injective ((· ^^^ ·) octet) := xor_injective
  rw [← RepeatingKey.apply_eq_apply_iff combined first second octets]
  constructor
  · intro same
    have undone := congrArg (key.mask first) same
    rw [key.mask_mask] at undone
    exact undone.symm
  · intro same
    have masked : key.mask second octets = key.mask first octets := same.symm
    rw [masked]
    exact key.mask_mask first octets

/-- Masking leaves octets as they are where the key is zero. -/
theorem MaskingKey.mask_eq_self_iff (key : MaskingKey) (position : Nat) (octets : Octets) :
    key.mask position octets = octets ↔
      ∀ index < octets.length, key.at' (position + index) = 0 :=
  RepeatingKey.apply_eq_self_iff xor_eq_self_iff position octets

/-- Two octets masked from the first position on and others masked for the second time, but from the
third position on, come back where the key is zero. -/
theorem MaskingKey.mask_append_mask_eq_iff (key : MaskingKey) {first : Octets} (reason : Octets)
    (two : first.length = 2) :
    key.mask 0 (first ++ key.mask 0 reason) = first ++ reason ↔
      ∀ position < reason.length + 2, key.at' position = 0 := by
  have parts : key.mask 0 (first ++ key.mask 0 reason) = first ++ reason ↔
      key.mask 0 first = first ∧ key.mask (0 + first.length) (key.mask 0 reason) = reason := by
    rw [key.mask_append]
    constructor
    · exact fun same => List.append_inj same (key.mask_length 0 first)
    · rintro ⟨same, same'⟩
      rw [same, same']
  rw [parts, key.mask_eq_self_iff, key.mask_mask_eq_self_iff, two]
  constructor
  · rintro ⟨zero, periodic⟩ position
    induction position using Nat.strong_induction_on with
    | _ position ih =>
        intro small
        by_cases early : position < 2
        · simpa using zero position early
        · obtain ⟨index, rfl⟩ := Nat.exists_eq_add_of_le (Nat.le_of_not_lt early)
          have back := periodic index (by omega)
          rw [Nat.zero_add, Nat.zero_add] at back
          rw [back]
          exact ih index (by omega) (by omega)
  · intro zero
    refine ⟨fun index small => ?_, fun index small => ?_⟩
    · rw [Nat.zero_add]
      exact zero index (by omega)
    · rw [zero (0 + 2 + index) (by omega), zero (0 + index) (by omega)]

/-! ## The frame that is written -/

/-- The code in front of the reason. -/
def errorCode (code : Nat) : Octets := if 0 < code then octetsOf 2 code else []

/-- The frame that `Close` writes, with the payload that the other end unmasks. -/
def closeFrame (mask : Option MaskingKey) (code : Nat) (reason : Octets) : Frame :=
  ⟨true, oConnectionClose, mask, sendPayload (errorCode code ++ sendPayload reason mask) mask⟩

@[simp]
theorem sendPayload_length (data : Octets) (mask : Option MaskingKey) :
    (sendPayload data mask).length = data.length := by
  cases mask with
  | none => rfl
  | some key => exact key.mask_length 0 data

theorem sendPayload_sendPayload (data : Octets) (mask : Option MaskingKey) :
    sendPayload (sendPayload data mask) mask = data := by
  cases mask with
  | none => rfl
  | some key => exact key.mask_mask 0 data

theorem errorCode_length_le (code : Nat) : (errorCode code).length ≤ 2 := by
  rw [errorCode]
  split
  · rw [Http2.octetsOf_length]
  · exact Nat.zero_le 2

variable {code : Nat} {reason : Octets}

theorem closeFrame_payload_length (mask : Option MaskingKey) :
    (closeFrame mask code reason).payload.length = reason.length + (errorCode code).length := by
  show (sendPayload _ mask).length = _
  rw [sendPayload_length, List.length_append, sendPayload_length, Nat.add_comm]

theorem closeFrame_close (fits : reason.length ≤ 123) (mask : Option MaskingKey) :
    (closeFrame mask code reason).Close := by
  refine ⟨rfl, rfl, ?_⟩
  have few := errorCode_length_le code
  rw [closeFrame_payload_length]
  omega

/-- `Send_Frame` writes the octets of the frame. -/
theorem sendFrame_close (mask : Option MaskingKey) :
    sendFrame oConnectionClose reason code mask = (closeFrame mask code reason).octets := by
  have coded : (if oConnectionClose = oConnectionClose ∧ 0 < code then octetsOf 2 code else []) =
      errorCode code := by
    rw [errorCode]
    simp only [true_and]
  have payload : sendPayload (closeFrame mask code reason).payload mask =
      errorCode code ++ sendPayload reason mask := sendPayload_sendPayload _ mask
  have front : sendFrameHeader oConnectionClose (reason.length + (errorCode code).length) mask =
      (closeFrame mask code reason).front := by
    rw [Frame.front, Frame.header, closeFrame_payload_length]
    rfl
  rw [sendFrame, coded, front, Frame.octets, List.append_assoc]
  exact congrArg _ payload.symm

/-! ## What is decoded -/

theorem Frame.header_octets (frame : Frame) : Header.ofOctets frame.octets = frame.header :=
  Header.ofOctets_octets frame.header

theorem Frame.unmaskedPayload_octets {frame : Frame} (short : frame.payload.length ≤ 125) :
    unmaskedPayload frame.octets = frame.payload := by
  have size : (frame.header.payloadLength : Nat) = frame.payload.length := by
    show (Frame.payloadLength _ : Nat) = _
    rw [Frame.payloadLength, dif_pos short]
  have extended : Frame.extendedLength frame.payload.length = [] := if_pos short
  rw [unmaskedPayload, frame.header_octets, size, Frame.octets, Frame.front, extended,
    List.append_nil]
  cases mask : frame.mask with
  | none =>
      have unmasked : frame.header.mask = false := by rw [Frame.header, mask]; rfl
      have two : (frame.header.octets ++ none.elim [] MaskingKey.octets).length = 2 := rfl
      rw [if_neg (by rw [unmasked]; exact Bool.false_ne_true), List.drop_left' two]
      exact List.take_length
  | some key =>
      have masked : frame.header.mask = true := by rw [Frame.header, mask]; rfl
      have six : (frame.header.octets ++ (some key).elim [] MaskingKey.octets).length = 6 := by
        show (frame.header.octets ++ key.octets).length = 6
        rw [List.length_append, key.octets_length, Header.octets_length]
      have taken : (key.mask 0 frame.payload).take frame.payload.length =
          key.mask 0 frame.payload := List.take_of_length_le (by rw [key.mask_length])
      have key_read : MaskingKey.ofOctets
          (((frame.header.octets ++ key.octets ++ key.mask 0 frame.payload).drop 2).take 4) =
            key := by
        rw [List.append_assoc, List.drop_left' frame.header.octets_length,
          List.take_left' key.octets_length, key.ofOctets_octets]
      rw [if_pos masked, List.drop_left' six]
      show MaskingKey.mask (MaskingKey.ofOctets
        (((frame.header.octets ++ key.octets ++ key.mask 0 frame.payload).drop 2).take 4)) 0
          ((key.mask 0 frame.payload).take frame.payload.length) = frame.payload
      rw [key_read, taken]
      exact key.mask_mask 0 frame.payload

theorem closePayload_eq_some_iff {payload : Octets} (small : code < 2 ^ 16) :
    closePayload payload = some (code, reason) ↔ payload = octetsOf 2 code ++ reason := by
  have two := Http2.octetsOf_length 2 code
  constructor
  · intro decoded
    rw [closePayload] at decoded
    split at decoded
    next long =>
        cases decoded
        have front := Http2.octetsOf_bigEndian (payload.take 2)
        rw [List.length_take_of_le long] at front
        rw [front, List.take_append_drop]
    next => cases decoded
  · rintro rfl
    have long : 2 ≤ (octetsOf 2 code ++ reason).length := by
      rw [List.length_append, two]
      exact Nat.le_add_right 2 _
    rw [closePayload, if_pos long, List.take_left' two, List.drop_left' two,
      Http2.bigEndian_octetsOf_of_lt small]

/-- Code and reason are decoded where there is a code and the mask leaves the payload as it is. -/
theorem closePayload_closeFrame_iff (small : code < 2 ^ 16) (mask : Option MaskingKey) :
    closePayload (closeFrame mask code reason).payload = some (code, reason) ↔
      0 < code ∧ LeavesFirst mask (reason.length + 2) := by
  have two := Http2.octetsOf_length 2 code
  rw [closePayload_eq_some_iff small]
  by_cases positive : 0 < code
  · have coded : errorCode code = octetsOf 2 code := if_pos positive
    rw [and_iff_right positive, closeFrame, coded]
    cases mask with
    | none => exact iff_of_true rfl nofun
    | some key =>
        have leaves : LeavesFirst (some key) (reason.length + 2) ↔
            ∀ position < reason.length + 2, key.at' position = 0 :=
          ⟨fun first => first key rfl, fun first => by rintro _ ⟨⟩; exact first⟩
        rw [leaves]
        exact key.mask_append_mask_eq_iff reason two
  · refine iff_of_false (fun same => ?_) fun possible => positive possible.1
    have lengths := congrArg List.length same
    have no_code : errorCode code = [] := if_neg positive
    rw [closeFrame_payload_length, no_code, List.length_append, two] at lengths
    simp at lengths

/-- The frame conveys code and reason where there is a code and the mask leaves the payload as it
is. -/
theorem conveys_closeFrame_iff (small : code < 2 ^ 16) (fits : reason.length ≤ 123)
    (mask : Option MaskingKey) :
    Conveys (closeFrame mask code reason).octets code reason ↔
      0 < code ∧ LeavesFirst mask (reason.length + 2) := by
  have close : (closeFrame mask code reason).Close := closeFrame_close fits mask
  rw [← closePayload_closeFrame_iff small, ← Frame.unmaskedPayload_octets close.payload_le]
  refine ⟨fun conveys => conveys.decoded, fun decoded => ⟨?_, ?_, decoded⟩⟩
  · rw [Frame.header_octets]
    rfl
  · rw [Frame.header_octets]
    rfl

/-! ## What the other end reports -/

/-- The code is reported if it is a known one and the reason, with the octets behind it, is encoded
in UTF-8; a protocol error is reported in any case. -/
theorem closeErrno_eq_iff (around : Surroundings) (small : code < 2 ^ 16) :
    Object.closeErrno around (octetsOf 2 code ++ reason) = code ↔
      code = ErrorType.protocolError.code ∨ IsReportedCode code ∧
        Utils.isValidUtf8 ((reason ++ around.beyond).take (reason.length + 2)) = true := by
  have two := Http2.octetsOf_length 2 code
  have length_eq : (octetsOf 2 code ++ reason).length = reason.length + 2 := by
    rw [List.length_append, two, Nat.add_comm]
  have long : 2 ≤ (octetsOf 2 code ++ reason).length := by
    rw [length_eq]
    exact Nat.le_add_left 2 _
  rw [Object.closeErrno, if_pos long, List.take_left' two, List.drop_left' two, length_eq,
    Http2.bigEndian_octetsOf_of_lt small]
  by_cases valid : (IsLibraryError code ∨ (ErrorType.ofErrno code).IsValidCloseCode) ∧
      Utils.isValidUtf8 ((reason ++ around.beyond).take (reason.length + 2)) = true
  · rw [if_pos valid]
    exact iff_of_true rfl (.inr valid)
  · rw [if_neg valid]
    exact ⟨fun same => .inl same.symm, fun known => (known.resolve_right valid).symm⟩

/-- `Receive` reports a close frame with the code that its payload leads to. -/
theorem reports_iff {receiver : Object} {frame : Frame} {tail : Octets} {size : Nat}
    (around : Surroundings) (close : frame.Close)
    (payload : frame.payload = octetsOf 2 code ++ reason) (room : 125 ≤ size)
    (boundary : receiver.protocol.remaining = 0)
    (content : receiver.incoming.flatten = frame.octets ++ tail) :
    Reports (Object.receive around size receiver.protocol receiver) code reason ↔
      Object.closeErrno around frame.payload = code := by
  have short : frame.payload.length < 2 ^ 63 := by
    have := close.payload_le
    omega
  rw [Frame.octets, List.append_assoc] at content
  obtain ⟨rest, left, received⟩ := receive_front around size boundary short
    (close.notData.not_badHeader _) content
  obtain ⟨object, _, kind, errno, done⟩ :=
    @receivePayload_close frame (frame.started receiver.protocol) tail size around
      { receiver with incoming := rest } close (if_neg close.notData.1) room rfl
      (by rw [Frame.masked_started]; exact left)
  have reason_eq : frame.payload.drop 2 = reason := by
    rw [payload]
    exact List.drop_left' (Http2.octetsOf_length 2 code)
  rw [received, done, ← errno]
  exact ⟨fun reported => reported.2.1, fun same => ⟨kind, same, reason_eq⟩⟩

/-! ## The round trip -/

/-- What the code and the reason of a close frame need to come back. -/
structure ComesBack (mask : Option MaskingKey) (code : Nat) (reason beyond : Octets) : Prop where
  positive : 0 < code
  mask : LeavesFirst mask (reason.length + 2)
  reported : code = ErrorType.protocolError.code ∨ IsReportedCode code ∧
    Utils.isValidUtf8 ((reason ++ beyond).take (reason.length + 2)) = true

/-- `Close` writes a frame that conveys code and reason, and the other end reports them, exactly if
the key is zero where it is used, the code is one that is reported and the reason is taken for
UTF-8. -/
theorem close_reported_iff (around : Surroundings) (sender : Object) (small : code < 2 ^ 16)
    (fits : reason.length ≤ 123) :
    ∃ frame : Octets, Object.close around reason code sender = .ok ()
        { sender with
          written := sender.written ++ [(oConnectionClose, frame)]
          protocol := { sender.protocol with closeSent := true } } ∧
      ∀ (around' : Surroundings) (receiver : Object) (tail : Octets) (size : Nat), 125 ≤ size →
        receiver.protocol.remaining = 0 → receiver.incoming.flatten = frame ++ tail →
        (Conveys frame code reason ∧
            Reports (Object.receive around' size receiver.protocol receiver) code reason ↔
          ComesBack (sender.maskOf around) code reason around'.beyond) := by
  let mask := sender.maskOf around
  refine ⟨(closeFrame mask code reason).octets, ?_, ?_⟩
  · rw [← sendFrame_close]
    rfl
  · intro around' receiver tail size room boundary content
    have close : (closeFrame mask code reason).Close := closeFrame_close fits mask
    have reported : ∀ payload : (closeFrame mask code reason).payload = octetsOf 2 code ++ reason,
        Reports (Object.receive around' size receiver.protocol receiver) code reason ↔
          code = ErrorType.protocolError.code ∨ IsReportedCode code ∧
            Utils.isValidUtf8 ((reason ++ around'.beyond).take (reason.length + 2)) = true := by
      intro payload
      rw [reports_iff around' close payload room boundary content, payload,
        closeErrno_eq_iff around' small]
    constructor
    · rintro ⟨conveys, reports⟩
      obtain ⟨positive, leaves⟩ := (conveys_closeFrame_iff small fits mask).mp conveys
      have payload := (closePayload_eq_some_iff small).mp
        ((closePayload_closeFrame_iff small mask).mpr ⟨positive, leaves⟩)
      exact ⟨positive, leaves, (reported payload).mp reports⟩
    · rintro ⟨positive, leaves, known⟩
      have payload := (closePayload_eq_some_iff small).mp
        ((closePayload_closeFrame_iff small mask).mpr ⟨positive, leaves⟩)
      exact ⟨(conveys_closeFrame_iff small fits mask).mpr ⟨positive, leaves⟩,
        (reported payload).mpr known⟩

/-- A server says goodbye, and the client reports it, with a frame behind it and letters in memory. -/
theorem close_reported_server :
    ∃ frame : Octets, Conveys frame 1000 [98, 121, 101] ∧
      Reports (Object.receive ⟨fun _ => 7, [111, 107, 33]⟩ 4096 {}
        { isClientSide := true, incoming := [frame, [0x8A, 0x02, 111], [107]] }) 1000 [98, 121, 101] := by
  obtain ⟨frame, -, comes_back⟩ := @close_reported_iff 1000 [98, 121, 101] ⟨fun _ => 7, [111, 107, 33]⟩
    { isClientSide := false } (by decide) (by decide)
  exact ⟨frame, (comes_back ⟨fun _ => 7, [111, 107, 33]⟩
    { isClientSide := true, incoming := [frame, [0x8A, 0x02, 111], [107]] } [0x8A, 0x02, 111, 107] 4096
    (by decide) rfl rfl).mpr ⟨by decide, nofun, .inr ⟨by decide, by decide⟩⟩⟩

/-- A client that closes normally with the key `01 01 01 01` conveys another code, and the server
reports a protocol error. -/
theorem close_reason_lost :
    ∃ frame : Octets, Object.close ⟨fun _ => 1, []⟩ [] 1000 { isClientSide := true } = .ok ()
        { isClientSide := true
          written := [(oConnectionClose, frame)]
          protocol := { closeSent := true } } ∧
      ¬Conveys frame 1000 [] ∧
      ¬Reports (Object.receive ⟨fun _ => 1, []⟩ 4096 {}
        { isClientSide := false, incoming := [frame] }) 1000 [] := by
  refine ⟨[0x88, 0x82, 1, 1, 1, 1, 0x03, 0xE8], rfl, fun conveys => ?_, fun reported => ?_⟩
  · exact absurd conveys.decoded (by decide)
  · exact absurd reported.2.1 (by decide)

end WebSocket
end AdaWebServer

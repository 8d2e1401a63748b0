import AdaWebServer.Http2.Wire
import AdaWebServer.WebSocket.ReadMessage

/-!
# Messages are delivered

A message travels as one frame or as fragments, with control frames between them.  The reader
delivers every message that fits into an `Unbounded_String`, however it is fragmented and masked
and however the socket cuts its octets.
-/

namespace AdaWebServer
namespace WebSocket

open Http2 (Octet Octets Exn bigEndian octetsOf naturalLast)

/-! ## Messages and the frames that carry them -/

/-- The kinds of messages. -/
inductive MessageKind where
  | text
  | binary
  deriving DecidableEq, Repr

namespace MessageKind

/-- The kind that the `WebSocket` has. -/
def kind : MessageKind → Kind
  | text => .text
  | binary => .binary

/-- The opcode of the first frame. -/
def opcode : MessageKind → Opcode
  | text => oText
  | binary => oBinary

theorem dataOpcode_kind (messageKind : MessageKind) :
    dataOpcode messageKind.kind = messageKind.opcode := by
  cases messageKind <;> rfl

end MessageKind

/-- A message. -/
structure Message where
  kind : MessageKind
  octets : Octets

/-- A text is encoded in UTF-8. -/
def Message.WellFormed (message : Message) : Prop :=
  message.kind = .text → ∃ chars : List Char, message.octets = chars.flatMap String.utf8EncodeChar

/-- A message that fits into an `Unbounded_String`. -/
def Message.Fits (message : Message) : Prop := message.octets.length ≤ naturalLast

/-- A frame on the wire. -/
structure Frame where
  fin : Bool
  opcd : Opcode
  mask : Option MaskingKey
  payload : Octets

namespace Frame

/-- The length in the header. -/
def payloadLength (length : Nat) : Fin 128 :=
  if small : length ≤ 125 then ⟨length, lt_of_small small⟩ else if length ≤ 65535 then 126 else 127

/-- The length after the header. -/
def extendedLength (length : Nat) : Octets :=
  if length ≤ 125 then [] else if length ≤ 65535 then octetsOf 2 length else octetsOf 8 length

/-- The header. -/
def header (frame : Frame) : Header :=
  ⟨frame.fin, false, false, false, frame.opcd, frame.mask.isSome,
    payloadLength frame.payload.length⟩

/-- The octets in front of the payload. -/
def front (frame : Frame) : Octets :=
  frame.header.octets ++ extendedLength frame.payload.length ++ frame.mask.elim [] MaskingKey.octets

/-- The octets of a frame. -/
def octets (frame : Frame) : Octets := frame.front ++ sendPayload frame.payload frame.mask

/-- A ping or a pong. -/
structure Control (frame : Frame) : Prop where
  opcd : frame.opcd = oPing ∨ frame.opcd = oPong
  fin : frame.fin = true
  payload_le : frame.payload.length ≤ 125

/-- A close frame. -/
structure Close (frame : Frame) : Prop where
  opcd : frame.opcd = oConnectionClose
  fin : frame.fin = true
  payload_le : frame.payload.length ≤ 125

end Frame

/-- The frames carry the messages, in the middle of a message of which the octets so far are given.
A close frame ends the conversation, and the message in the middle of which it stands. -/
inductive Carries : Option (MessageKind × Octets) → List Frame → List Message → Prop
  | done : Carries none [] []
  | close {sofar : Option (MessageKind × Octets)} {frame : Frame} {frames : List Frame}
      (closes : frame.Close) (fits : ∀ opened ∈ sofar, opened.2.length ≤ naturalLast) :
      Carries sofar (frame :: frames) []
  | control {sofar : Option (MessageKind × Octets)} {frame : Frame} {frames : List Frame}
      {messages : List Message} (control : frame.Control) (rest : Carries sofar frames messages) :
      Carries sofar (frame :: frames) messages
  | whole {kind : MessageKind} {mask : Option MaskingKey} {payload : Octets}
      {frames : List Frame} {messages : List Message} (rest : Carries none frames messages) :
      Carries none (⟨true, kind.opcode, mask, payload⟩ :: frames) (⟨kind, payload⟩ :: messages)
  | first {kind : MessageKind} {mask : Option MaskingKey} {payload : Octets}
      {frames : List Frame} {messages : List Message}
      (rest : Carries (some (kind, payload)) frames messages) :
      Carries none (⟨false, kind.opcode, mask, payload⟩ :: frames) messages
  | next {kind : MessageKind} {sofar : Octets} {mask : Option MaskingKey} {payload : Octets}
      {frames : List Frame} {messages : List Message}
      (rest : Carries (some (kind, sofar ++ payload)) frames messages) :
      Carries (some (kind, sofar)) (⟨false, oContinuation, mask, payload⟩ :: frames) messages
  | last {kind : MessageKind} {sofar : Octets} {mask : Option MaskingKey} {payload : Octets}
      {frames : List Frame} {messages : List Message} (rest : Carries none frames messages) :
      Carries (some (kind, sofar)) (⟨true, oContinuation, mask, payload⟩ :: frames)
        (⟨kind, sofar ++ payload⟩ :: messages)

/-! ## Reading from the chunks -/

/-- The action takes the octets from the front of what the socket delivers. -/
def Reads {α : Type} (action : Action α) (front : Octets) (result : α) : Prop :=
  ∀ (object : Object) (tail : Octets), object.incoming.flatten = front ++ tail →
    ∃ rest : List Octets, rest.flatten = tail ∧
      action object = .ok result { object with incoming := rest }

theorem Reads.pure {α : Type} (result : α) : Reads (Pure.pure result) [] result :=
  fun object _ content => ⟨object.incoming, content, rfl⟩

theorem Reads.bind {α β : Type} {action : Action α} {next : α → Action β} {front back : Octets}
    {result : α} {final : β} (first : Reads action front result)
    (second : Reads (next result) back final) : Reads (action >>= next) (front ++ back) final := by
  intro object tail content
  rw [List.append_assoc] at content
  obtain ⟨rest, left, done⟩ := first object _ content
  obtain ⟨rest', left', done'⟩ := second { object with incoming := rest } tail left
  refine ⟨rest', left', ?_⟩
  rw [← done']
  show EStateM.bind action next object = _
  rw [EStateM.bind, done]

/-- A second action that takes nothing. -/
theorem Reads.then {α β : Type} {action : Action α} {next : α → Action β} {front : Octets}
    {result : α} {final : β} (first : Reads action front result)
    (second : Reads (next result) [] final) : Reads (action >>= next) front final := by
  have both := first.bind second
  rwa [List.append_nil] at both

theorem reads_data {front : Octets} {count : Nat} (size : front.length = count) :
    Reads (Object.readData count) front front := by
  intro object tail content
  obtain ⟨rest, found, left⟩ := Chunks.exists_read_of_flatten content
  refine ⟨rest, left, ?_⟩
  rw [Object.readData, ← size, found]

theorem reads_length (header : Header) {length : Nat} (fits : length < 2 ^ 63)
    (coded : header.payloadLength = Frame.payloadLength length) :
    Reads (Object.readLength header) (Frame.extendedLength length) length := by
  rw [Object.readLength, coded, Frame.payloadLength, Frame.extendedLength]
  by_cases tiny : length ≤ 125
  · have not126 : (⟨length, lt_of_small tiny⟩ : Fin 128) ≠ 126 := fun same => by
      have := congrArg Fin.val same
      simp at this
      omega
    have not127 : (⟨length, lt_of_small tiny⟩ : Fin 128) ≠ 127 := fun same => by
      have := congrArg Fin.val same
      simp at this
      omega
    rw [dif_pos tiny, if_pos tiny, if_neg not126, if_neg not127]
    exact .pure length
  · rw [dif_neg tiny, if_neg tiny]
    by_cases short : length ≤ 65535
    · rw [if_pos short, if_pos short, if_pos rfl]
      have value : bigEndian (octetsOf 2 length) = length :=
        Http2.bigEndian_octetsOf_of_lt (by omega)
      refine (reads_data (Http2.octetsOf_length 2 length)).then ?_
      rw [value]
      exact .pure length
    · rw [if_neg short, if_neg short, if_neg (by decide), if_pos rfl]
      have value : bigEndian (octetsOf 8 length) = length :=
        Http2.bigEndian_octetsOf_of_lt (by omega)
      refine (reads_data (Http2.octetsOf_length 8 length)).then ?_
      rw [value, if_pos fits]
      exact .pure length

theorem reads_mask (header : Header) (mask : Option MaskingKey) (previous : MaskingKey)
    (coded : header.mask = mask.isSome) :
    Reads (Object.readMask header previous) (mask.elim [] MaskingKey.octets)
      (mask.getD previous) := by
  rw [Object.readMask, coded]
  cases mask with
  | none => exact .pure previous
  | some key =>
      refine (reads_data key.octets_length).then ?_
      rw [MaskingKey.ofOctets_octets]
      exact .pure key

/-! ## Receiving a frame -/

/-- A sequence whose first action returns goes on with the second. -/
theorem bind_of_ok {α β : Type} {action : Action α} {next : α → Action β}
    {object after : Object} {result : α} (done : action object = .ok result after) :
    (action >>= next) object = next result after := by
  show EStateM.bind action next object = _
  rw [EStateM.bind, done]

/-- The copy of the protocol state after the header of a frame. -/
def Frame.started (frame : Frame) (state : State) : State :=
  { state with
    remaining := frame.payload.length
    mask := frame.mask.getD state.mask
    hasMask := frame.mask.isSome
    read := 0
    lastFragment := frame.fin
    opcd := if frame.opcd = oContinuation then state.opcd else frame.opcd }

/-- `Receive` reads the header of a frame and goes on with its payload. -/
theorem receive_front {frame : Frame} {object : Object} {state : State} {tail : Octets}
    (around : Surroundings) (size : Nat) (boundary : state.remaining = 0)
    (fits : frame.payload.length < 2 ^ 63) (good : ¬Object.BadHeader frame.header object.protocol)
    (content : object.incoming.flatten = frame.front ++ tail) :
    ∃ rest : List Octets, rest.flatten = tail ∧
      Object.receive around size state object =
        Object.receivePayload around size frame.header (frame.started state)
          { object with incoming := rest } := by
  rw [Frame.front, List.append_assoc, List.append_assoc] at content
  obtain ⟨rest₁, left₁, header⟩ := reads_data frame.header.octets_length object _ content
  obtain ⟨rest₂, left₂, length⟩ :=
    reads_length frame.header fits rfl { object with incoming := rest₁ } _ left₁
  obtain ⟨rest₃, left₃, mask⟩ :=
    reads_mask frame.header frame.mask state.mask rfl { object with incoming := rest₂ } _ left₂
  refine ⟨rest₃, left₃, ?_⟩
  rw [Object.receive, if_pos boundary, bind_of_ok header, Header.ofOctets_octets,
    bind_of_ok length, bind_of_ok mask]
  show (if Object.BadHeader frame.header object.protocol then _ else _ : Action Octets)
    { object with incoming := rest₃ } = _
  rw [if_neg good]
  rfl

/-- The payload as it travels, from where the state is in the frame. -/
def State.masked (state : State) (left : Octets) : Octets :=
  if state.hasMask then state.mask.mask state.read left else left

/-- The state after some octets of the payload. -/
def State.advance (state : State) (count : Nat) : State :=
  { state with read := state.read + count, remaining := state.remaining - count }

theorem State.masked_append (state : State) (first second : Octets) :
    state.masked (first ++ second) =
      state.masked first ++ (state.advance first.length).masked second := by
  cases masked : state.hasMask <;>
    simp [State.masked, State.advance, masked, MaskingKey.mask_append]

@[simp]
theorem State.masked_length (state : State) (left : Octets) :
    (state.masked left).length = left.length := by
  rw [State.masked]
  split
  · exact state.mask.mask_length _ _
  · rfl

theorem Frame.masked_started (frame : Frame) (state : State) (left : Octets) :
    (frame.started state).masked left = sendPayload left frame.mask := by
  cases mask : frame.mask <;> simp [State.masked, Frame.started, sendPayload, mask]

/-- `Read_Payload` unmasks what it reads. -/
theorem reads_payload (state : State) (data : Octets) :
    Reads (Object.readPayload state data.length) (state.masked data)
      (data, state.advance data.length) := by
  refine (reads_data (state.masked_length data)).then ?_
  have unmasked : (if state.hasMask then state.mask.mask state.read (state.masked data)
      else state.masked data) = data := by
    simp only [State.masked]
    split
    · exact state.mask.mask_mask state.read data
    · rfl
  rw [unmasked]
  exact .pure _

/-- `Receive` takes as much of the payload of a data frame as fits. -/
theorem receivePayload_data {kind : MessageKind} {state : State} {object : Object}
    {data tail : Octets} (around : Surroundings) (size : Nat) (header : Header)
    (opcd : state.opcd = kind.opcode) (count : min size state.remaining = data.length)
    (content : object.incoming.flatten = state.masked data ++ tail) :
    ∃ rest : List Octets, rest.flatten = tail ∧
      Object.receivePayload around size header state object =
        .ok data { object with
          kind := kind.kind
          protocol := state.advance data.length
          incoming := rest } := by
  have dispatched : Object.receivePayload around size header state =
      Object.receiveData kind.kind state data.length := by
    rw [Object.receivePayload, opcd, ← count]
    cases kind <;> rfl
  obtain ⟨rest, left, done⟩ :=
    reads_payload state data { object with kind := kind.kind } tail content
  refine ⟨rest, left, ?_⟩
  have kind_set : Object.setKind kind.kind object = .ok () { object with kind := kind.kind } := rfl
  rw [dispatched, Object.receiveData, bind_of_ok kind_set, bind_of_ok done]
  rfl

theorem Frame.wholeControl {frame : Frame} (fin : frame.fin = true)
    (payload_le : frame.payload.length ≤ 125) : Object.WholeControl frame.header := by
  have coded : frame.header.payloadLength = ⟨frame.payload.length, by omega⟩ := dif_pos payload_le
  exact ⟨by rw [coded]; exact payload_le, fin⟩

/-- `Receive` on a ping or a pong leaves the protocol state as it was. -/
theorem receivePayload_control {frame : Frame} {state : State} {tail : Octets}
    (around : Surroundings) (object : Object) (control : frame.Control) (opcd : state.opcd = frame.opcd)
    (count : state.remaining = frame.payload.length)
    (content : object.incoming.flatten = state.masked frame.payload ++ tail) :
    ∃ object' : Object, object'.incoming.flatten = tail ∧ object'.protocol = object.protocol ∧
      (object'.kind = .ping ∨ object'.kind = .pong) ∧
      Object.receivePayload around 4096 frame.header state object = .ok frame.payload object' := by
  have payload_le := control.payload_le
  have toRead : min 4096 state.remaining = frame.payload.length := by omega
  have whole := Frame.wholeControl control.fin payload_le
  rcases control.opcd with ping | pong
  · obtain ⟨rest, left, done⟩ :=
      reads_payload state frame.payload { object with kind := .ping } tail content
    have kind_set : Object.setKind .ping object = .ok () { object with kind := .ping } := rfl
    have dispatched : Object.receivePayload around 4096 frame.header state =
        Object.receivePing around frame.header state frame.payload.length := by
      rw [Object.receivePayload, opcd, ping, toRead]
      rfl
    rw [dispatched, Object.receivePing, bind_of_ok kind_set, bind_of_ok done, if_pos whole]
    refine ⟨_, ?_, ?_, .inl ?_, rfl⟩
    · exact left
    · rfl
    · rfl
  · obtain ⟨rest, left, done⟩ :=
      reads_payload state frame.payload { object with kind := .pong } tail content
    have kind_set : Object.setKind .pong object = .ok () { object with kind := .pong } := rfl
    have dispatched : Object.receivePayload around 4096 frame.header state =
        Object.receivePong frame.header state frame.payload.length := by
      rw [Object.receivePayload, opcd, pong, toRead]
      rfl
    rw [dispatched, Object.receivePong, bind_of_ok kind_set, bind_of_ok done, if_pos whole]
    refine ⟨_, ?_, ?_, .inr ?_, rfl⟩
    · exact left
    · rfl
    · rfl

/-- The reply to a close frame takes nothing from the socket and leaves the error number. -/
theorem exists_answerClose (around : Surroundings) (data : Octets) (object : Object) :
    ∃ after : Object, after.incoming = object.incoming ∧ after.errno = object.errno ∧
      Object.answerClose around data object = .ok () after := by
  unfold Object.answerClose
  split
  · exact ⟨object, rfl, rfl, rfl⟩
  · exact ⟨_, by rfl, by rfl, rfl⟩

/-- `Receive` on a close frame. -/
theorem receivePayload_close {frame : Frame} {state : State} {tail : Octets} {size : Nat}
    (around : Surroundings) (object : Object) (close : frame.Close) (opcd : state.opcd = frame.opcd)
    (room : 125 ≤ size) (count : state.remaining = frame.payload.length)
    (content : object.incoming.flatten = state.masked frame.payload ++ tail) :
    ∃ object' : Object, object'.incoming.flatten = tail ∧ object'.kind = .connectionClose ∧
      object'.errno = Object.closeErrno around frame.payload ∧
      Object.receivePayload around size frame.header state object = .ok frame.payload object' := by
  have payload_le := close.payload_le
  have toRead : min size state.remaining = frame.payload.length := by omega
  have whole := Frame.wholeControl close.fin payload_le
  obtain ⟨rest, left, done⟩ := reads_payload state frame.payload object tail content
  have dispatched : Object.receivePayload around size frame.header state =
      Object.receiveClose around frame.header state frame.payload.length := by
    rw [Object.receivePayload, opcd, close.opcd, toRead]
    rfl
  rw [dispatched, Object.receiveClose, bind_of_ok done, if_pos whole]
  obtain ⟨after, same, errno, answered⟩ := exists_answerClose around frame.payload
    { object with incoming := rest, errno := Object.closeErrno around frame.payload }
  have errno_set : Object.setErrno (Object.closeErrno around frame.payload)
      { object with incoming := rest } = .ok () { object with
        incoming := rest
        errno := Object.closeErrno around frame.payload } := rfl
  rw [bind_of_ok errno_set, bind_of_ok answered]
  refine ⟨{ after with kind := .connectionClose }, ?_, rfl, errno, rfl⟩
  rw [← left, same]

/-! ## What is still to be delivered -/

/-- The octets of frames. -/
def octetsOfFrames (frames : List Frame) : Octets := frames.flatMap Frame.octets

/-- The rest of a message after some frame: nothing if the frame was the last one. -/
def CarriesAfter (fin : Bool) (kind : MessageKind) (sofar : Octets) (frames : List Frame)
    (messages : List Message) : Prop :=
  if fin then ∃ rest, messages = ⟨kind, sofar⟩ :: rest ∧ Carries none frames rest
  else Carries (some (kind, sofar)) frames messages

/-- What has been read of an open message fits. -/
theorem Carries.sofar_fits {kind : MessageKind} {sofar : Octets} {frames : List Frame}
    {messages : List Message} (carries : Carries (some (kind, sofar)) frames messages)
    (fits : ∀ message ∈ messages, message.Fits) : sofar.length ≤ naturalLast := by
  generalize opened : some (kind, sofar) = state at carries
  induction carries generalizing sofar with
  | done => cases opened
  | close _ room => exact room _ opened.symm
  | control _ _ ih => exact ih fits opened
  | whole _ _ => cases opened
  | first _ _ => cases opened
  | next _ ih =>
      cases opened
      have longer := ih fits rfl
      rw [List.length_append] at longer
      omega
  | last _ _ =>
      cases opened
      have longer := fits _ List.mem_cons_self
      rw [Message.Fits, List.length_append] at longer
      omega

theorem CarriesAfter.fits {fin : Bool} {kind : MessageKind} {sofar : Octets}
    {frames : List Frame} {messages : List Message}
    (carries : CarriesAfter fin kind sofar frames messages)
    (fits : ∀ message ∈ messages, message.Fits) : sofar.length ≤ naturalLast := by
  cases fin with
  | false => exact Carries.sofar_fits carries fits
  | true =>
      obtain ⟨rest, rfl, _⟩ := carries
      exact fits _ List.mem_cons_self

/-- The reader is in front of frames. -/
structure InFront (reader : Reader) (sofar : Option (MessageKind × Octets))
    (frames : List Frame) : Prop where
  remaining : reader.object.protocol.remaining = 0
  content : reader.object.incoming.flatten = octetsOfFrames frames
  lastFragment : reader.object.protocol.lastFragment = sofar.isNone
  message : reader.message = (sofar.map Prod.snd).getD []
  opcd : ∀ opened ∈ sofar, reader.object.protocol.opcd = opened.1.opcode
  open' : reader.isShutdown = false

/-- The reader is within the payload of a data frame. -/
structure Within (reader : Reader) (kind : MessageKind) (left : Octets) (fin : Bool)
    (frames : List Frame) : Prop where
  remaining : reader.object.protocol.remaining = left.length
  left_ne_nil : left ≠ []
  content : reader.object.incoming.flatten =
    reader.object.protocol.masked left ++ octetsOfFrames frames
  lastFragment : reader.object.protocol.lastFragment = fin
  opcd : reader.object.protocol.opcd = kind.opcode
  open' : reader.isShutdown = false

/-- The messages that the reader has still to deliver. -/
inductive Expects (reader : Reader) (messages : List Message) : Prop
  | inFront {sofar : Option (MessageKind × Octets)} {frames : List Frame}
      (position : InFront reader sofar frames) (carries : Carries sofar frames messages)
  | within {kind : MessageKind} {left : Octets} {fin : Bool} {frames : List Frame}
      (position : Within reader kind left fin frames)
      (carries : CarriesAfter fin kind (reader.message ++ left) frames messages)
  | ended (shut : reader.isShutdown = true) (none_left : messages = [])

/-- The message of a reader after a call of `Read_Message`. -/
def Reader.next (complete : Bool) (reader : Reader) : Reader :=
  if complete then { reader with message := [] } else reader

/-- The message as it is handed over. -/
def Message.handed (message : Message) : Kind × Octets := (message.kind.kind, message.octets)

@[simp]
theorem Reader.delivered_call (reader : Reader) (callbacks : List Callback) :
    (reader.call callbacks).delivered =
      reader.delivered ++ callbacks.filterMap Callback.message? :=
  List.filterMap_append

/-- What the reader does with the part of a payload that has been received. -/
theorem exists_handle (reader : Reader) (kind : MessageKind) (data left : Octets) {fin : Bool}
    {frames : List Frame} {messages : List Message} (is_kind : reader.object.kind = kind.kind)
    (remaining : reader.object.protocol.remaining = left.length)
    (content : reader.object.incoming.flatten =
      reader.object.protocol.masked left ++ octetsOfFrames frames)
    (lastFragment : reader.object.protocol.lastFragment = fin)
    (opcd : reader.object.protocol.opcd = kind.opcode) (open' : reader.isShutdown = false)
    (carries : CarriesAfter fin kind (reader.message ++ (data ++ left)) frames messages)
    (fits : (reader.message ++ (data ++ left)).length ≤ naturalLast)
    (formed : ∀ message ∈ messages, message.WellFormed) :
    ∃ complete reader' given messages', Reader.handle data reader = .ok complete reader' ∧
      reader'.object = reader.object ∧
      reader'.delivered = reader.delivered ++ given.map Message.handed ∧
      messages = given ++ messages' ∧ Expects (reader'.next complete) messages' := by
  have room : ¬naturalLast < (reader.message ++ data).length := by
    rw [← List.append_assoc, List.length_append] at fits
    omega
  have dispatched : Reader.handle data reader = Reader.handleData data reader := by
    unfold Reader.handle
    rw [is_kind]
    cases kind <;> rfl
  rw [dispatched, Reader.handleData, if_neg room]
  cases left with
  | nil =>
      rw [List.append_nil] at carries
      have no_mask : reader.object.protocol.masked [] = [] :=
        List.length_eq_zero_iff.mp (State.masked_length _ _)
      rw [no_mask, List.nil_append] at content
      cases fin with
      | false =>
          have going_on : ¬reader.object.protocol.EndOfMessage := fun complete => by
            rw [complete.2] at lastFragment
            cases lastFragment
          have position : InFront { reader with message := reader.message ++ data }
              (some (kind, reader.message ++ data)) frames := by
            refine ⟨remaining, content, lastFragment, rfl, ?_, open'⟩
            rintro opened ⟨⟩
            exact opcd
          exact ⟨false, _, [], messages, if_neg going_on, rfl, (List.append_nil _).symm, rfl,
            .inFront position carries⟩
      | true =>
          have complete : reader.object.protocol.EndOfMessage := ⟨remaining, lastFragment⟩
          obtain ⟨rest, rfl, carries⟩ := carries
          have valid : ¬(reader.object.kind = .text ∧
              Utils.isValidUtf8 (reader.message ++ data) = false) := by
            rintro ⟨is_text, invalid⟩
            have text_kind : kind = .text := by
              rw [is_kind] at is_text
              cases kind with
              | text => rfl
              | binary => cases is_text
            obtain ⟨chars, encoded⟩ := formed _ List.mem_cons_self text_kind
            rw [show reader.message ++ data = _ from encoded, Utils.isValidUtf8_utf8Encode]
              at invalid
            cases invalid
          rw [if_pos complete, if_neg valid, is_kind]
          have position : InFront (({ reader with message := reader.message ++ data }.call
              [.onMessage kind.kind (reader.message ++ data), .onSuccess]).next true)
              none frames := by
            refine ⟨remaining, content, lastFragment, rfl, fun _ opened => ?_, open'⟩
            cases opened
          refine ⟨true, _, [⟨kind, reader.message ++ data⟩], rest, rfl, rfl, ?_, rfl,
            .inFront position carries⟩
          rw [Reader.delivered_call]
          rfl
  | cons octet octets =>
      have going_on : ¬reader.object.protocol.EndOfMessage := fun complete => by
        rw [complete.1] at remaining
        cases remaining
      have position : Within { reader with message := reader.message ++ data } kind
          (octet :: octets) fin frames :=
        ⟨remaining, List.cons_ne_nil _ _, content, lastFragment, opcd, open'⟩
      rw [← List.append_assoc] at carries
      exact ⟨false, _, [], messages, if_neg going_on, rfl, (List.append_nil _).symm, rfl,
        .within position carries⟩

/-! ## A call of Read_Message -/

/-- What a call of `Read_Message` leads to: it delivers the first messages, and the reader goes on to
expect the others. -/
def Delivers (reader : Reader) (messages : List Message) (around : Surroundings) : Prop :=
  ∃ complete reader' given messages', Reader.readMessage around reader = .ok complete reader' ∧
    reader'.delivered = reader.delivered ++ given.map Message.handed ∧
    messages = given ++ messages' ∧ Expects (reader'.next complete) messages' ∧
    reader'.object.incoming.flatten.length < reader.object.incoming.flatten.length

/-- A part of the payload of a data frame is received and handled. -/
theorem delivers_of_data {reader : Reader} {object : Object} {header : Header} {state : State}
    {kind : MessageKind} {left : Octets} {frames : List Frame} {messages : List Message}
    {around : Surroundings}
    (received : Object.receive around 4096 reader.object.protocol reader.object =
      Object.receivePayload around 4096 header state object)
    (remaining : state.remaining = left.length) (opcd : state.opcd = kind.opcode)
    (content : object.incoming.flatten = state.masked left ++ octetsOfFrames frames)
    (open' : reader.isShutdown = false)
    (carries : CarriesAfter state.lastFragment kind (reader.message ++ left) frames messages)
    (fits : ∀ message ∈ messages, message.Fits)
    (formed : ∀ message ∈ messages, message.WellFormed)
    (shorter : object.incoming.flatten.length < reader.object.incoming.flatten.length ∨
      left ≠ [] ∧ object.incoming = reader.object.incoming) :
    Delivers reader messages around := by
  have whole : left.take 4096 ++ left.drop 4096 = left := List.take_append_drop 4096 left
  have count : min 4096 state.remaining = (left.take 4096).length := by
    rw [remaining, List.length_take]
  rw [← whole, State.masked_append, List.append_assoc] at content
  obtain ⟨rest, remainder, done⟩ := receivePayload_data around 4096 header opcd count content
  have less : (left.take 4096).length ≤ left.length := List.length_take_le' 4096 left
  obtain ⟨complete, reader', given, messages', handled, same, delivered, split, expects⟩ :=
    exists_handle { reader with object := { object with
        kind := kind.kind
        protocol := state.advance (left.take 4096).length
        incoming := rest } } kind (left.take 4096) (left.drop 4096) rfl
      (by simp only [State.advance, remaining, List.length_drop, List.length_take]; omega)
      remainder rfl opcd open' (by rw [whole]; exact carries)
      (by rw [whole]; exact carries.fits fits) formed
  refine ⟨complete, reader', given, messages', ?_, delivered, split, expects, ?_⟩
  · rw [Reader.readMessage, received, done]
    exact handled
  · have consumed := congrArg List.length content
    rw [List.length_append, State.masked_length, ← remainder] at consumed
    rw [same]
    show rest.flatten.length < _
    rcases shorter with shorter | ⟨some_left, same_incoming⟩
    · omega
    · have taken : 0 < (left.take 4096).length := by
        rw [List.length_take]
        have := List.length_pos_iff.mpr some_left
        omega
      rw [← same_incoming]
      omega

theorem Frame.length_lt_front_append (frame : Frame) (tail : Octets) :
    tail.length < (frame.front ++ tail).length := by
  rw [List.length_append, front, List.length_append, List.length_append, Header.octets_length]
  omega

/-- The opcode is not that of a data frame. -/
def Frame.NotData (frame : Frame) : Prop :=
  frame.opcd ≠ oContinuation ∧ frame.opcd ≠ oText ∧ frame.opcd ≠ oBinary

theorem Frame.Control.notData {frame : Frame} (control : frame.Control) : frame.NotData := by
  rw [Frame.NotData]
  rcases control.opcd with is_ping | is_pong
  · rw [is_ping]
    decide
  · rw [is_pong]
    decide

theorem Frame.Close.notData {frame : Frame} (close : frame.Close) : frame.NotData := by
  rw [Frame.NotData, close.opcd]
  decide

theorem Frame.NotData.not_badHeader {frame : Frame} (not_data : frame.NotData)
    (protocol : State) : ¬Object.BadHeader frame.header protocol := by
  rintro (rsv | rsv | rsv | ⟨continuation, _⟩ | ⟨text | binary, _⟩)
  · cases rsv
  · cases rsv
  · cases rsv
  · exact not_data.1 continuation
  · exact not_data.2.1 text
  · exact not_data.2.2 binary

/-- In front of a frame, what is left after its header. -/
theorem InFront.content_cons {reader : Reader} {sofar : Option (MessageKind × Octets)}
    {frame : Frame} {frames : List Frame} (position : InFront reader sofar (frame :: frames)) :
    reader.object.incoming.flatten =
      frame.front ++ ((frame.started reader.object.protocol).masked frame.payload ++
        octetsOfFrames frames) := by
  rw [position.content, Frame.masked_started, octetsOfFrames, List.flatMap_cons, Frame.octets,
    List.append_assoc]
  rfl

/-- The reader in front of a data frame. -/
theorem InFront.delivers_data {reader : Reader} {sofar : Option (MessageKind × Octets)}
    {frame : Frame} {kind : MessageKind} {frames : List Frame} {messages : List Message}
    (position : InFront reader sofar (frame :: frames)) (around : Surroundings)
    (good : ¬Object.BadHeader frame.header reader.object.protocol)
    (opcd : (frame.started reader.object.protocol).opcd = kind.opcode)
    (carries : CarriesAfter frame.fin kind (reader.message ++ frame.payload) frames messages)
    (fits : ∀ message ∈ messages, message.Fits)
    (formed : ∀ message ∈ messages, message.WellFormed) : Delivers reader messages around := by
  have short : frame.payload.length < 2 ^ 63 := by
    have whole := carries.fits fits
    rw [List.length_append] at whole
    simp only [naturalLast] at whole
    omega
  have content := position.content_cons
  obtain ⟨rest, left, received⟩ :=
    receive_front around 4096 position.remaining short good content
  refine delivers_of_data received rfl opcd left position.open' carries fits formed (.inl ?_)
  show rest.flatten.length < _
  rw [left, content]
  exact frame.length_lt_front_append _

/-- The reader in front of a ping or a pong. -/
theorem InFront.delivers_control {reader : Reader} {sofar : Option (MessageKind × Octets)}
    {frame : Frame} {frames : List Frame} {messages : List Message}
    (position : InFront reader sofar (frame :: frames)) (around : Surroundings)
    (control : frame.Control) (carries : Carries sofar frames messages) :
    Delivers reader messages around := by
  have short : frame.payload.length < 2 ^ 63 := by
    have := control.payload_le
    omega
  have content := position.content_cons
  obtain ⟨rest, left, received⟩ :=
    receive_front around 4096 position.remaining short (control.notData.not_badHeader _) content
  obtain ⟨object, left', protocol, kind, done⟩ :=
    receivePayload_control around { reader.object with incoming := rest } control
      (if_neg control.notData.1) rfl left
  have shorter : object.incoming.flatten.length < reader.object.incoming.flatten.length := by
    rw [left', content]
    exact (Nat.le_add_left _ _).trans_lt (List.length_append ▸ frame.length_lt_front_append _)
  have position' : InFront { reader with object } sofar frames := by
    refine ⟨?_, left', ?_, position.message, ?_, position.open'⟩
    · rw [protocol]
      exact position.remaining
    · rw [protocol]
      exact position.lastFragment
    · rw [protocol]
      exact position.opcd
  have handled : Reader.handle frame.payload { reader with object } =
      if object.protocol.EndOfMessage then
        .ok true ({ reader with object }.call [.onSuccess])
      else .ok false { reader with object } := by
    unfold Reader.handle
    rcases kind with kind | kind <;> rw [kind]
  rw [Delivers, Reader.readMessage, received, done]
  show ∃ complete reader' given messages', Reader.handle frame.payload { reader with object } = _ ∧ _
  rw [handled]
  by_cases complete : object.protocol.EndOfMessage
  · have none_open : sofar = none := by
      have last := position.lastFragment
      rw [← protocol, complete.2] at last
      exact Option.isNone_iff_eq_none.mp last.symm
    subst none_open
    rw [if_pos complete]
    refine ⟨true, _, [], messages, rfl, ?_, rfl, .inFront (show InFront _ none frames from ⟨position'.remaining,
      position'.content, position'.lastFragment, rfl, position'.opcd, position'.open'⟩) carries,
      shorter⟩
    rw [Reader.delivered_call]
    rfl
  · rw [if_neg complete]
    exact ⟨false, _, [], messages, rfl, (List.append_nil _).symm, rfl, .inFront position' carries,
      shorter⟩

/-- The reader in front of a close frame. -/
theorem InFront.delivers_close {reader : Reader} {sofar : Option (MessageKind × Octets)}
    {frame : Frame} {frames : List Frame} (position : InFront reader sofar (frame :: frames))
    (around : Surroundings) (close : frame.Close) : Delivers reader [] around := by
  have short : frame.payload.length < 2 ^ 63 := by
    have := close.payload_le
    omega
  have content := position.content_cons
  obtain ⟨rest, left, received⟩ :=
    receive_front around 4096 position.remaining short (close.notData.not_badHeader _) content
  obtain ⟨object, left', kind, -, done⟩ :=
    receivePayload_close around { reader.object with incoming := rest } close
      (if_neg close.notData.1) (by decide : 125 ≤ 4096) rfl left
  have shorter : object.incoming.flatten.length < reader.object.incoming.flatten.length := by
    rw [left', content]
    exact (Nat.le_add_left _ _).trans_lt (List.length_append ▸ frame.length_lt_front_append _)
  have handled : Reader.handle frame.payload { reader with object } =
      .ok true ({ reader with object }.call
        [.onFailure, .onClose reader.message]).shutdown := by
    unfold Reader.handle
    rw [kind]
  rw [Delivers, Reader.readMessage, received, done]
  refine ⟨true, _, [], [], handled, ?_, rfl, .ended rfl rfl, shorter⟩
  show (Reader.call _ _).delivered = _
  rw [Reader.delivered_call]
  rfl

/-- A data frame that starts a message. -/
theorem InFront.delivers_start {reader : Reader} {kind : MessageKind} {fin : Bool}
    {mask : Option MaskingKey} {payload : Octets} {frames : List Frame} {messages : List Message}
    (position : InFront reader none (⟨fin, kind.opcode, mask, payload⟩ :: frames))
    (around : Surroundings) (carries : CarriesAfter fin kind payload frames messages)
    (fits : ∀ message ∈ messages, message.Fits)
    (formed : ∀ message ∈ messages, message.WellFormed) : Delivers reader messages around := by
  have not_continuation : kind.opcode ≠ oContinuation := by cases kind <;> decide
  have good : ¬Object.BadHeader (Frame.header ⟨fin, kind.opcode, mask, payload⟩)
      reader.object.protocol := by
    rintro (rsv | rsv | rsv | ⟨continuation, _⟩ | ⟨_, within⟩)
    · cases rsv
    · cases rsv
    · cases rsv
    · exact not_continuation continuation
    · rw [position.lastFragment] at within
      cases within
  refine position.delivers_data around good (if_neg not_continuation) ?_ fits formed
  rw [position.message]
  exact carries

/-- A data frame that continues a message. -/
theorem InFront.delivers_continuation {reader : Reader} {kind : MessageKind} {sofar : Octets}
    {fin : Bool} {mask : Option MaskingKey} {payload : Octets} {frames : List Frame}
    {messages : List Message}
    (position : InFront reader (some (kind, sofar)) (⟨fin, oContinuation, mask, payload⟩ :: frames))
    (around : Surroundings) (carries : CarriesAfter fin kind (sofar ++ payload) frames messages)
    (fits : ∀ message ∈ messages, message.Fits)
    (formed : ∀ message ∈ messages, message.WellFormed) : Delivers reader messages around := by
  have good : ¬Object.BadHeader (Frame.header ⟨fin, oContinuation, mask, payload⟩)
      reader.object.protocol := by
    rintro (rsv | rsv | rsv | ⟨_, nothing⟩ | ⟨text | binary, _⟩)
    · cases rsv
    · cases rsv
    · cases rsv
    · rw [position.lastFragment] at nothing
      cases nothing
    · cases text
    · cases binary
  have opcd : (Frame.started ⟨fin, oContinuation, mask, payload⟩ reader.object.protocol).opcd =
      kind.opcode := position.opcd _ rfl
  refine position.delivers_data around good opcd ?_ fits formed
  rw [position.message]
  exact carries

/-- A call of `Read_Message` on a reader that expects messages. -/
theorem Expects.delivers {reader : Reader} {messages : List Message}
    (expects : Expects reader messages) (open' : reader.isShutdown = false)
    (pending : reader.object.incoming.flatten ≠ []) (fits : ∀ message ∈ messages, message.Fits)
    (formed : ∀ message ∈ messages, message.WellFormed) (around : Surroundings) :
    Delivers reader messages around := by
  cases expects with
  | inFront position carries =>
      cases carries with
      | done => exact absurd position.content pending
      | close closes _ => exact position.delivers_close around closes
      | control control rest => exact position.delivers_control around control rest
      | whole rest => exact position.delivers_start around ⟨_, rfl, rest⟩ fits formed
      | first rest => exact position.delivers_start around rest fits formed
      | next rest => exact position.delivers_continuation around rest fits formed
      | last rest => exact position.delivers_continuation around ⟨_, rfl, rest⟩ fits formed
  | within position carries =>
      have going_on : reader.object.protocol.remaining ≠ 0 := by
        rw [position.remaining]
        exact fun none_left => position.left_ne_nil (List.length_eq_zero_iff.mp none_left)
      have received : Object.receive around 4096 reader.object.protocol reader.object =
          Object.receivePayload around 4096 (Header.ofOctets [0, 0]) reader.object.protocol
            reader.object := by
        rw [Object.receive, if_neg going_on]
      exact delivers_of_data received position.remaining position.opcd position.content open'
        (by rw [position.lastFragment]; exact carries) fits formed
        (.inr ⟨position.left_ne_nil, rfl⟩)
  | ended shut _ =>
      rw [open'] at shut
      cases shut

theorem Expects.eq_nil {reader : Reader} {messages : List Message}
    (expects : Expects reader messages) (done : reader.object.incoming.flatten = []) :
    messages = [] := by
  cases expects with
  | inFront position carries =>
      have no_frames := position.content.symm.trans done
      cases carries with
      | done => rfl
      | close _ _ => rfl
      | control _ _ | whole _ | first _ | next _ | last _ =>
          have lengths := congrArg List.length no_frames
          simp [octetsOfFrames, Frame.octets, Frame.front] at lengths
  | within position _ =>
      have lengths := congrArg List.length (position.content.symm.trans done)
      rw [List.length_append, State.masked_length] at lengths
      have none_left := (Nat.add_eq_zero_iff.mp lengths).1
      exact absurd (List.length_eq_zero_iff.mp none_left) position.left_ne_nil
  | ended _ none_left => exact none_left

/-- The loop delivers what the reader expects, when it may make as many calls as there are octets to
read. -/
theorem delivered_readMessages {reader : Reader} {messages : List Message}
    (expects : Expects reader messages) (fits : ∀ message ∈ messages, message.Fits)
    (formed : ∀ message ∈ messages, message.WellFormed) (around : Nat → Surroundings)
    {count : Nat} (enough : reader.object.incoming.flatten.length ≤ count) :
    (reader.readMessages around count).delivered =
      reader.delivered ++ messages.map Message.handed := by
  induction count generalizing reader messages with
  | zero =>
      have none_left := expects.eq_nil (List.length_eq_zero_iff.mp (Nat.le_zero.mp enough))
      rw [none_left]
      exact (List.append_nil _).symm
  | succ count ih =>
      rw [Reader.readMessages]
      split_ifs with stopped
      · have none_left : messages = [] := by
          rcases stopped with shut | done
          · cases expects with
            | inFront position _ => exact absurd shut (by simp [position.open'])
            | within position _ => exact absurd shut (by simp [position.open'])
            | ended _ none_left => exact none_left
          · exact expects.eq_nil done
        rw [none_left]
        exact (List.append_nil _).symm
      · rw [not_or, Bool.not_eq_true] at stopped
        obtain ⟨complete, reader', given, messages', read, delivered, rfl, expects', shorter⟩ :=
          expects.delivers stopped.1 stopped.2 fits formed (around count)
        have rest := ih expects' (fun message later => fits message (List.mem_append_right _ later))
          (fun message later => formed message (List.mem_append_right _ later))
          (by cases complete <;> exact Nat.le_of_lt_succ (shorter.trans_le enough))
        rw [read, List.map_append, ← List.append_assoc, ← delivered]
        cases complete <;> exact rest

/-! ## Sending -/

theorem MaskingKey.mask_four_mul (key : MaskingKey) (count : Nat) (octets : Octets) :
    key.mask (4 * count) octets = key.mask 0 octets := by
  induction count with
  | zero => rfl
  | succ count ih => rw [Nat.mul_succ, key.mask_add_four, ih]

/-- A slice that starts at a multiple of four is masked as a part of the whole. -/
private theorem sendPayload_append (mask : Option MaskingKey) (count : Nat)
    (first second : Octets) (aligned : first.length = 4 * count) :
    sendPayload (first ++ second) mask = sendPayload first mask ++ sendPayload second mask := by
  cases mask with
  | none => rfl
  | some key =>
      rw [sendPayload, key.mask_append, Nat.zero_add, aligned, key.mask_four_mul]
      rfl

/-- The loop writes what is left of the payload, a multiple of the chunk size having been written. -/
private theorem sendData_eq {data : Octets} (mask : Option MaskingKey)
    (small : data.length + 4096 ≤ 2 ^ 31) (fuel chunks : Nat)
    (position : 4096 * chunks < data.length ∨ chunks = 0)
    (enough : data.length < 4096 * chunks + fuel) :
    sendData data mask fuel (4096 * chunks + 1) =
      (sendPayload (data.drop (4096 * chunks)) mask, none) := by
  induction fuel generalizing chunks with
  | zero => omega
  | succ fuel ih =>
      have no_overflow : ¬naturalLast < 4096 * chunks + 1 + 4096 := by
        simp only [naturalLast]
        omega
      rw [sendData, if_neg no_overflow]
      by_cases last : data.length ≤ 4096 * chunks + 4096
      · have final : min data.length (4096 * chunks + 1 + 4096 - 1) = data.length := by omega
        simp only [final, List.take_length, Nat.add_sub_cancel, if_true]
      · have next : min data.length (4096 * chunks + 1 + 4096 - 1) = 4096 * (chunks + 1) := by
          omega
        have more : 4096 * (chunks + 1) ≠ data.length := by omega
        have slice : (data.take (4096 * (chunks + 1))).drop (4096 * chunks) ++
            data.drop (4096 * (chunks + 1)) = data.drop (4096 * chunks) := by
          rw [← List.drop_append_of_le_length (by rw [List.length_take]; omega),
            List.take_append_drop]
        have aligned : ((data.take (4096 * (chunks + 1))).drop (4096 * chunks)).length =
            4 * 1024 := by
          rw [List.length_drop, List.length_take]
          omega
        have rest := ih (chunks + 1) (.inl (by omega)) (by omega)
        simp only [next, Nat.add_sub_cancel, if_neg more, rest]
        rw [← slice, sendPayload_append mask 1024 _ _ aligned]

/-- Both operations write the same, unless the loop over the slices of the string overflows. -/
theorem sendString_eq (around : Surroundings) {data : Octets}
    (small : data.length + 4096 ≤ 2 ^ 31) (object : Object) :
    Object.sendString around data object = Object.sendArray around data object := by
  have payload : sendData data (object.maskOf around) (data.length + 1) 1 =
      (sendPayload data (object.maskOf around), none) :=
    sendData_eq (object.maskOf around) small (data.length + 1) 0 (.inr rfl) (by omega)
  simp only [Object.sendString, payload]
  rfl

/-- A message that is sent, through one of the two operations of the protocol. -/
structure Sending where
  around : Surroundings
  message : Message
  /-- The message is an `Unbounded_String`. -/
  asString : Bool

namespace Sending

/-- The message fits into an `Unbounded_String`, and the loop over its slices does not overflow. -/
def Fits (sending : Sending) : Prop :=
  sending.message.octets.length + (if sending.asString then 4095 else 0) ≤ naturalLast

theorem Fits.message {sending : Sending} (fits : sending.Fits) : sending.message.Fits :=
  Nat.le_of_add_right_le fits

/-- `Send` of the message. -/
def action (sending : Sending) : Action Unit := do
  Object.setKind sending.message.kind.kind
  if sending.asString then Object.sendString sending.around sending.message.octets
  else Object.sendArray sending.around sending.message.octets

/-- The frame that is sent. -/
def frame (sending : Sending) (sender : Object) : Frame :=
  ⟨true, sending.message.kind.opcode, sender.maskOf sending.around, sending.message.octets⟩

/-- `Send` writes one frame. -/
theorem action_eq {sending : Sending} (fits : sending.Fits) (sender : Object) :
    sending.action sender = .ok () ({ sender with kind := sending.message.kind.kind }.write
      sending.message.kind.opcode (sending.frame sender).octets) := by
  have kind_set : Object.setKind sending.message.kind.kind sender =
      .ok () { sender with kind := sending.message.kind.kind } := rfl
  have array : Object.sendArray sending.around sending.message.octets
      { sender with kind := sending.message.kind.kind } =
        .ok () ({ sender with kind := sending.message.kind.kind }.write
          sending.message.kind.opcode (sending.frame sender).octets) := by
    show EStateM.Result.ok () (Object.write _ (dataOpcode sending.message.kind.kind)
      (Frame.octets ⟨true, dataOpcode sending.message.kind.kind, _, _⟩)) = _
    rw [sending.message.kind.dataOpcode_kind]
    rfl
  rw [action, bind_of_ok kind_set]
  by_cases asString : sending.asString = true
  · have small : sending.message.octets.length + 4096 ≤ 2 ^ 31 := by
      have room := fits
      rw [Fits, if_pos asString, naturalLast] at room
      omega
    rw [if_pos asString, sendString_eq _ small, array]
  · rw [if_neg asString, array]

end Sending

/-- The octets that `Send` writes for the messages, one after the other. -/
def sentOctets : List Sending → Object → Octets
  | [], _ => []
  | sending :: sendings, sender =>
      match sending.action sender with
      | .ok _ after | .error _ after =>
          (after.written.drop sender.written.length).flatMap Prod.snd ++ sentOctets sendings after

/-- The frames that are sent carry the messages. -/
theorem exists_frames_of_sent {sendings : List Sending} (sender : Object)
    (fits : ∀ sending ∈ sendings, sending.Fits) :
    ∃ frames, sentOctets sendings sender = octetsOfFrames frames ∧
      Carries none frames (sendings.map Sending.message) := by
  induction sendings generalizing sender with
  | nil => exact ⟨[], rfl, .done⟩
  | cons sending sendings ih =>
      have sent := sending.action_eq (fits _ List.mem_cons_self) sender
      obtain ⟨frames, octets, carries⟩ :=
        ih ({ sender with kind := sending.message.kind.kind }.write sending.message.kind.opcode
          (sending.frame sender).octets) fun later member => fits later (List.mem_cons_of_mem _ member)
      refine ⟨sending.frame sender :: frames, ?_, .whole carries⟩
      simp only [sentOctets, sent]
      rw [octets, Object.write, List.drop_left]
      simp [octetsOfFrames]

/-! ## The whole conversation -/

/-- The reader is between two messages. -/
structure Reader.Between (reader : Reader) : Prop where
  remaining : reader.object.protocol.remaining = 0
  lastFragment : reader.object.protocol.lastFragment = true
  message : reader.message = []
  open' : reader.isShutdown = false

theorem Reader.Between.inFront {reader : Reader} (between : reader.Between) {frames : List Frame}
    (content : reader.object.incoming.flatten = octetsOfFrames frames) :
    InFront reader none frames :=
  ⟨between.remaining, content, between.lastFragment, between.message,
    fun _ opened => (by cases opened), between.open'⟩

/-- However messages are fragmented, interleaved with control frames, masked and cut into chunks, the
loop delivers them, each once, unmasked, in order and with its kind; and it delivers what the other
end sends. -/
theorem messages_delivered {reader : Reader} (between : reader.Between)
    (around : Nat → Surroundings) {count : Nat}
    (enough : reader.object.incoming.flatten.length ≤ count) :
    (∀ frames messages, reader.object.incoming.flatten = octetsOfFrames frames →
      Carries none frames messages →
      (∀ message ∈ messages, message.Fits ∧ message.WellFormed) →
      (reader.readMessages around count).delivered =
        reader.delivered ++ messages.map Message.handed) ∧
    ∀ (sender : Object) (sendings : List Sending),
      reader.object.incoming.flatten = sentOctets sendings sender →
      (∀ sending ∈ sendings, sending.Fits ∧ sending.message.WellFormed) →
      (reader.readMessages around count).delivered =
        reader.delivered ++ sendings.map fun sending => sending.message.handed := by
  constructor
  · intro frames messages content carries deliverable
    exact delivered_readMessages (.inFront (between.inFront content) carries)
      (fun message member => (deliverable message member).1)
      (fun message member => (deliverable message member).2) around enough
  · intro sender sendings content deliverable
    obtain ⟨frames, octets, carries⟩ :=
      exists_frames_of_sent sender fun sending member => (deliverable sending member).1
    have delivered := delivered_readMessages
      (.inFront (between.inFront (content.trans octets)) carries)
      (fun message member => by
        obtain ⟨sending, sent, rfl⟩ := List.mem_map.mp member
        exact (deliverable sending sent).1.message)
      (fun message member => by
        obtain ⟨sending, sent, rfl⟩ := List.mem_map.mp member
        exact (deliverable sending sent).2) around enough
    rw [delivered, List.map_map]
    rfl

/-- A reader of a fresh object, to which the octets arrive in the given chunks. -/
def Reader.fresh (chunks : List Octets) : Reader :=
  { object := { isClientSide := false, incoming := chunks } }

theorem Reader.fresh_between (chunks : List Octets) : (Reader.fresh chunks).Between :=
  ⟨rfl, rfl, rfl, rfl⟩

/-- A text in two fragments, the second one masked, with a ping between them and cut into three
chunks. -/
theorem messages_delivered_fragments :
    ((Reader.fresh [[0x01, 0x01, 0x48], [0x89, 0x00, 0x80, 0x81], [1, 2, 3, 4, 0x68]]).readMessages
      (fun _ => ⟨fun _ => 0, []⟩) 12).delivered = [(.text, [0x48, 0x69])] := by
  have carries : Carries none [⟨false, oText, none, [0x48]⟩, ⟨true, oPing, none, []⟩,
      ⟨true, oContinuation, some (MaskingKey.ofOctets [1, 2, 3, 4]), [0x69]⟩]
      [⟨.text, [0x48, 0x69]⟩] :=
    @Carries.first .text none [0x48] _ _ (.control ⟨.inl rfl, rfl, by decide⟩ (.last .done))
  refine (messages_delivered (Reader.fresh_between _) _ (by decide)).1 _ _ (by decide) carries ?_
  intro message member
  obtain rfl := List.mem_singleton.mp member
  exact ⟨by simp [Message.Fits, naturalLast], fun _ => ⟨['H', 'i'], by decide⟩⟩

/-! ## Messages that do not fit -/

/-- The messages delivered so far fit. -/
def Reader.Fits (reader : Reader) : Prop :=
  ∀ handed ∈ reader.delivered, handed.2.length ≤ naturalLast

/-- The messages delivered when an action has come to its end fit. -/
def FitsAfter {α : Type} : EStateM.Result Exn Reader α → Prop
  | .ok _ reader => reader.Fits
  | .error _ reader => reader.Fits

private theorem Reader.Fits.call {reader : Reader} (fits : reader.Fits)
    {callbacks : List Callback}
    (small : ∀ handed ∈ callbacks.filterMap Callback.message?, handed.2.length ≤ naturalLast) :
    (reader.call callbacks).Fits := by
  intro handed member
  rw [Reader.delivered_call] at member
  exact (List.mem_append.mp member).elim (fits handed) (small handed)

private theorem Reader.Fits.with_object {reader : Reader} (fits : reader.Fits)
    (object : Object) : Reader.Fits { reader with object } := fits

private theorem Reader.Fits.handleData {reader : Reader} (fits : reader.Fits) (data : Octets) :
    FitsAfter (Reader.handleData data reader) := by
  simp only [Reader.handleData]
  split_ifs with long whole invalid
  · exact fits
  · exact Reader.Fits.call fits nofun
  · refine Reader.Fits.call fits fun handed member => ?_
    obtain rfl := List.mem_singleton.mp member
    exact Nat.not_lt.mp long
  · exact fits

private theorem Reader.Fits.handle {reader : Reader} (fits : reader.Fits) (data : Octets) :
    FitsAfter (Reader.handle data reader) := by
  unfold Reader.handle
  split
  · exact fits.handleData data
  · exact fits.handleData data
  · exact fits.call nofun
  · split_ifs
    · exact fits.call nofun
    · exact fits
  · split_ifs
    · exact fits.call nofun
    · exact fits
  · exact fits
  · exact fits.call nofun

private theorem Reader.Fits.webSocketException {reader : Reader} (fits : reader.Fits) (exn : Exn)
    (error : ErrorType) : (reader.webSocketException exn error).Fits := by
  refine Reader.Fits.call fits ?_
  cases error <;> exact nofun

private theorem Reader.Fits.readMessage {reader : Reader} (fits : reader.Fits)
    (around : Surroundings) : FitsAfter (Reader.readMessage around reader) := by
  rw [Reader.readMessage]
  split
  · exact Reader.Fits.handle (fits.with_object _) _
  · exact Reader.Fits.call (Reader.Fits.webSocketException fits _ _) nofun
  · exact fits

/-- Every message that the loop delivers fits into an `Unbounded_String`. -/
theorem Reader.Fits.readMessages {reader : Reader} (fits : reader.Fits)
    (around : Nat → Surroundings) (count : Nat) : (reader.readMessages around count).Fits := by
  induction count generalizing reader with
  | zero => exact fits
  | succ count ih =>
      rw [Reader.readMessages]
      split_ifs with stopped
      · exact fits
      · have once := fits.readMessage (around count)
        split
        next read =>
          rw [read] at once
          exact ih once
        next read =>
          rw [read] at once
          exact ih once
        next read =>
          rw [read] at once
          have failed : (Reader.call _ [.onFailure]).Fits := Reader.Fits.call once nofun
          exact failed.webSocketException _ _

/-- The loop delivers no message that is too long. -/
private theorem not_delivered_of_long {message : Message} (long : ¬message.Fits)
    (around : Nat → Surroundings) (count : Nat) (chunks : List Octets) :
    ((Reader.fresh chunks).readMessages around count).delivered ≠ [message.handed] := by
  intro delivered
  have fits : (Reader.fresh chunks).Fits := nofun
  exact long (fits.readMessages around count message.handed
    (by rw [delivered]; exact List.mem_singleton_self _))

/-- A well-formed binary message of 2^31 octets is not delivered, in however many calls. -/
theorem long_message_lost :
    ∃ frames messages, Carries none frames messages ∧
      (∀ message ∈ messages, message.WellFormed) ∧
      ∀ around count, ((Reader.fresh [octetsOfFrames frames]).readMessages around count).delivered ≠
        messages.map Message.handed := by
  obtain ⟨payload, size⟩ : ∃ payload : Octets, payload.length = naturalLast + 1 :=
    ⟨List.replicate (naturalLast + 1) 0, List.length_replicate⟩
  refine ⟨[⟨true, MessageKind.binary.opcode, none, payload⟩], [⟨.binary, payload⟩], .whole .done,
    ?_, ?_⟩
  · intro message member is_text
    rw [List.mem_singleton.mp member] at is_text
    cases is_text
  · intro around count
    refine not_delivered_of_long (fun fits => ?_) around count _
    rw [Message.Fits, size] at fits
    exact absurd fits (Nat.not_succ_le_self _)

end WebSocket
end AdaWebServer

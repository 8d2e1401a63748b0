import AdaWebServer.Foundations.Protected
import AdaWebServer.WebSocket.Closing

/-!
# Receiving whatever a peer sends

`Receive` delivers data, handles a control frame, ends the connection or raises `Socket_Error`,
whatever octets arrive.  The one exception is a 64-bit length whose first bit is set, which is
converted to a signed offset unchecked.
-/

namespace AdaWebServer
namespace WebSocket

open Http2 (Octet Octets Exn bigEndian)
open Execution
open Protected (Ensures)

/-! ## Outcomes -/

/-- The length of the payload that the octets after a header give. -/
def lengthRead (header : Header) (rest : Octets) : Nat :=
  if header.payloadLength = 126 then bigEndian (rest.take 2)
  else if header.payloadLength = 127 then bigEndian (rest.take 8)
  else header.payloadLength

/-- The octets of the payload that are left when `Receive` goes to read it. -/
def payloadLeft (state : State) (object : Object) : Nat :=
  if state.remaining = 0 then
    lengthRead (headerRead state object) (object.incoming.flatten.drop 2)
  else
    state.remaining

/-- `Receive` reads a 64-bit length that is no `Stream_Element_Offset`. -/
structure HugeLength (state : State) (object : Object) : Prop where
  boundary : state.remaining = 0
  arrived : 10 ≤ object.incoming.flatten.length
  extended : (headerRead state object).payloadLength = 127
  huge : 2 ^ 63 ≤ bigEndian ((object.incoming.flatten.drop 2).take 8)

/-- What a `Receive` into a `Data` of the given size returns with, when so many octets of the payload
are left. -/
inductive Received (size left : Nat) (before : Object) (data : Octets) (object : Object) : Prop
  /-- Octets of a message: they are taken off the count of those that remain. -/
  | message (kind : object.kind = .text ∨ object.kind = .binary)
      (length : data.length = min size left)
      (remaining : (object.protocol.remaining : Int) = left - data.length)
  /-- A ping or a pong, which leaves the message around it as it was. -/
  | control (kind : object.kind = .ping ∨ object.kind = .pong)
      (length : data.length = min size left) (protocol : object.protocol = before.protocol)
  /-- A close frame or a frame that is not understood. -/
  | ended (kind : object.kind = .connectionClose ∨ object.kind = .unknown)
      (length : data.length ≤ min size left)

/-- `Receive` returns in one of these ways or raises `Socket_Error`. -/
def Total (size left : Nat) (before : Object) : EStateM.Result Exn Object Octets → Prop :=
  Ensures (Received size left before) fun exn _ => exn = .socketError

/-- The opcode of a message that is not complete is that of its first frame. -/
def Coherent (protocol : State) : Prop :=
  protocol.remaining ≠ 0 ∨ protocol.lastFragment = false →
    protocol.opcd = oText ∨ protocol.opcd = oBinary

/-! ## Reading -/

/-- The result has the given property, and only octets have been taken from the socket: as many as
given. -/
structure Took {α : Type} (property : α → Prop) (count : Nat) (before : Object) (result : α)
    (object : Object) : Prop where
  result : property result
  arrived : count ≤ before.incoming.flatten.length
  object : ∃ incoming, object = { before with incoming } ∧
    incoming.flatten = before.incoming.flatten.drop count

/-- The socket has been closed before as many octets as given have arrived. -/
structure Short (count : Nat) (before : Object) (exn : Exn) (object : Object) : Prop where
  exn : exn = .socketError
  short : before.incoming.flatten.length < count
  protocol : object.protocol = before.protocol

theorem ensures_readData (count : Nat) (object : Object) :
    Ensures (Took (· = object.incoming.flatten.take count) count object) (Short count object)
      (Object.readData count object) := by
  rw [Object.readData]
  cases found : Chunks.read object.incoming count with
  | some taken =>
      obtain ⟨size, content⟩ := Chunks.flatten_of_read found
      refine ⟨?_, ?_, taken.2, rfl, ?_⟩
      · show taken.1 = _
        rw [content, List.take_left' size]
      · rw [content, List.length_append, size]
        exact Nat.le_add_right count _
      · rw [content, List.drop_left' size]
  | none =>
      refine ⟨rfl, Nat.lt_of_not_le fun long => ?_, rfl⟩
      obtain ⟨rest, found', _⟩ := Chunks.exists_read_of_flatten
        (List.take_append_drop count object.incoming.flatten).symm
      rw [List.length_take_of_le long, found] at found'
      cases found'

/-- The number of octets that a length takes. -/
def lengthSize (header : Header) : Nat :=
  if header.payloadLength = 126 then 2 else if header.payloadLength = 127 then 8 else 0

/-- A length that is no `Stream_Element_Offset`. -/
def IsHuge (header : Header) (rest : Octets) : Prop :=
  header.payloadLength = 127 ∧ 8 ≤ rest.length ∧ 2 ^ 63 ≤ bigEndian (rest.take 8)

theorem ensures_readLength (header : Header) (object : Object) :
    Ensures (Took (fun length => length = lengthRead header object.incoming.flatten ∧
        ¬IsHuge header object.incoming.flatten) (lengthSize header) object)
      (fun exn object' => object'.protocol = object.protocol ∧
        (exn = .socketError ∧ ¬IsHuge header object.incoming.flatten ∨
          exn = .constraintError ∧ IsHuge header object.incoming.flatten))
      (Object.readLength header object) := by
  rw [Object.readLength]
  by_cases short : header.payloadLength = 126
  · have not_huge : ¬IsHuge header object.incoming.flatten := fun huge => by
      have extended := huge.1
      rw [short] at extended
      exact absurd extended (by decide)
    have size : lengthSize header = 2 := if_pos short
    have length_eq : lengthRead header object.incoming.flatten =
        bigEndian (object.incoming.flatten.take 2) := if_pos short
    rw [if_pos short, size]
    refine ((ensures_readData 2 object).mono_raises fun exn object' failed =>
      ⟨failed.protocol, .inl ⟨failed.exn, not_huge⟩⟩).bind fun d16 object' took => ?_
    exact ⟨⟨by rw [length_eq, took.result], not_huge⟩, took.arrived, took.object⟩
  · by_cases long : header.payloadLength = 127
    · have size : lengthSize header = 8 := by rw [lengthSize, if_neg short, if_pos long]
      have length_eq : lengthRead header object.incoming.flatten =
          bigEndian (object.incoming.flatten.take 8) := by
        rw [lengthRead, if_neg short, if_pos long]
      rw [if_neg short, if_pos long, size]
      refine ((ensures_readData 8 object).mono_raises fun exn object' failed =>
        ⟨failed.protocol, .inl ⟨failed.exn, fun huge =>
          absurd huge.2.1 (Nat.not_le_of_lt failed.short)⟩⟩).bind fun d64 object' took => ?_
      obtain ⟨incoming, same, _⟩ := took.object
      by_cases fits : bigEndian d64 < 2 ^ 63
      · rw [if_pos fits]
        refine ⟨⟨by rw [length_eq, took.result], fun huge => ?_⟩, took.arrived, took.object⟩
        rw [took.result] at fits
        exact absurd huge.2.2 (Nat.not_le_of_lt fits)
      · rw [if_neg fits]
        refine ⟨by rw [same], .inr ⟨rfl, long, took.arrived, ?_⟩⟩
        rw [took.result] at fits
        exact Nat.le_of_not_lt fits
    · have not_huge : ¬IsHuge header object.incoming.flatten := fun huge => long huge.1
      have size : lengthSize header = 0 := by rw [lengthSize, if_neg short, if_neg long]
      have length_eq : lengthRead header object.incoming.flatten = header.payloadLength := by
        rw [lengthRead, if_neg short, if_neg long]
      rw [if_neg short, if_neg long, size]
      exact ⟨⟨length_eq.symm, not_huge⟩, Nat.zero_le _, object.incoming, rfl, rfl⟩

/-- The action only takes octets, or fails for want of them. -/
def TakesOnly {α : Type} (property : α → Prop) (before : Object) :
    EStateM.Result Exn Object α → Prop :=
  Ensures (fun result object => property result ∧ ∃ incoming, object = { before with incoming })
    fun exn object => exn = .socketError ∧ object.protocol = before.protocol

theorem takesOnly_readData (count : Nat) (object : Object) :
    TakesOnly (·.length = count) object (Object.readData count object) := by
  refine ((ensures_readData count object).mono fun data object' took => ⟨?_, ?_⟩).mono_raises
    fun exn object' failed => ⟨failed.exn, failed.protocol⟩
  · show data.length = count
    rw [took.result, List.length_take_of_le took.arrived]
  · obtain ⟨incoming, same, _⟩ := took.object
    exact ⟨incoming, same⟩

theorem takesOnly_readMask (header : Header) (mask : MaskingKey) (object : Object) :
    TakesOnly (fun _ => True) object (Object.readMask header mask object) := by
  rw [Object.readMask]
  split_ifs
  · exact (takesOnly_readData 4 object).bind fun octets object' took => ⟨trivial, took.2⟩
  · exact ⟨trivial, object.incoming, rfl⟩

theorem takesOnly_readPayload (state : State) (length : Nat) (object : Object) :
    TakesOnly (fun payload => payload.1.length = length ∧
        payload.2 = { state with
          read := state.read + length
          remaining := state.remaining - length })
      object (Object.readPayload state length object) := by
  rw [Object.readPayload]
  refine (takesOnly_readData length object).bind fun data object' took => ⟨⟨?_, rfl⟩, took.2⟩
  show (if _ then _ else _ : Octets).length = length
  split_ifs
  · rw [MaskingKey.mask_length, took.1]
  · exact took.1

/-! ## The payload -/

/-- What the payload of a frame leads to, on an object in a consistent state. -/
def Accounts (size left : Nat) (before : Object) : EStateM.Result Exn Object Octets → Prop :=
  Ensures (fun data object => Received size left before data object ∧ Coherent object.protocol)
    fun exn object => exn = .socketError ∧ object.protocol = before.protocol

variable {around : Surroundings} {header : Header} {state : State} {object : Object}

theorem accounts_data {kind : Kind} {size : Nat} (is_message : kind = .text ∨ kind = .binary)
    (opcd : state.opcd = oText ∨ state.opcd = oBinary) :
    Accounts size state.remaining object
      (Object.receiveData kind state (min size state.remaining) object) := by
  have kind_set : Object.setKind kind object = .ok () { object with kind } := rfl
  rw [Object.receiveData, Protected.bind_returned kind_set]
  refine (takesOnly_readPayload state _ { object with kind }).bind fun payload object' took => ?_
  obtain ⟨⟨length, advanced⟩, incoming, rfl⟩ := took
  refine ⟨.message is_message length ?_, fun _ => ?_⟩
  · show (payload.2.remaining : Int) = _
    rw [length, advanced]
    have fits : min size state.remaining ≤ state.remaining := Nat.min_le_right _ _
    show ((state.remaining - min size state.remaining : Nat) : Int) = _
    omega
  · show payload.2.opcd = _ ∨ payload.2.opcd = _
    rw [advanced]
    exact opcd

theorem accounts_close {size : Nat} (consistent : Coherent object.protocol) :
    Accounts size state.remaining object
      (Object.receiveClose around header state (min size state.remaining) object) := by
  rw [Object.receiveClose]
  refine (takesOnly_readPayload state _ object).bind fun payload object' took => ?_
  obtain ⟨⟨length, -⟩, incoming, rfl⟩ := took
  split_ifs with whole
  · have errno_set : Object.setErrno (Object.closeErrno around payload.1)
        { object with incoming } = .ok () { object with
          incoming
          errno := Object.closeErrno around payload.1 } := rfl
    rw [Protected.bind_returned errno_set]
    cases sent : object.protocol.closeSent with
    | true =>
        have answered (errno : Nat) : Object.answerClose around payload.1
            { object with incoming, errno } = .ok () { object with incoming, errno } :=
          if_pos sent
        rw [Protected.bind_returned (answered _)]
        exact ⟨.ended (.inl rfl) length.le, consistent⟩
    | false =>
        have answered (errno : Nat) : Object.answerClose around payload.1
            { object with incoming, errno } = Object.writeFrame around oConnectionClose
              (payload.1.drop 2) errno { object with
                incoming
                errno
                protocol := { object.protocol with closeSent := true } } :=
          if_neg (by rw [sent]; exact Bool.false_ne_true)
        rw [Protected.bind_returned (answered _)]
        exact ⟨.ended (.inl rfl) length.le, consistent⟩
  · exact ⟨.ended (.inr rfl) length.le, consistent⟩

theorem accounts_ping {size : Nat} (consistent : Coherent object.protocol) :
    Accounts size state.remaining object
      (Object.receivePing around header state (min size state.remaining) object) := by
  have kind_set : Object.setKind .ping object = .ok () { object with kind := .ping } := rfl
  rw [Object.receivePing, Protected.bind_returned kind_set]
  refine (takesOnly_readPayload state _ { object with kind := .ping }).bind
    fun payload object' took => ?_
  obtain ⟨⟨length, -⟩, incoming, rfl⟩ := took
  split_ifs with whole
  · exact ⟨.control (.inl rfl) length rfl, consistent⟩
  · exact ⟨.ended (.inr rfl) length.le, consistent⟩

theorem accounts_pong {size : Nat} (consistent : Coherent object.protocol) :
    Accounts size state.remaining object
      (Object.receivePong header state (min size state.remaining) object) := by
  have kind_set : Object.setKind .pong object = .ok () { object with kind := .pong } := rfl
  rw [Object.receivePong, Protected.bind_returned kind_set]
  refine (takesOnly_readPayload state _ { object with kind := .pong }).bind
    fun payload object' took => ?_
  obtain ⟨⟨length, -⟩, incoming, rfl⟩ := took
  split_ifs with whole
  · exact ⟨.control (.inr rfl) length rfl, consistent⟩
  · exact ⟨.ended (.inr rfl) length.le, consistent⟩

/-- One case for every opcode; the copy of the state never holds the opcode of a continuation. -/
theorem accounts_payload (size : Nat) (consistent : Coherent object.protocol)
    (started : state.opcd ≠ oContinuation) :
    Accounts size state.remaining object
      (Object.receivePayload around size header state object) := by
  rw [Object.receivePayload, if_neg started]
  split_ifs with text binary close ping pong
  · exact accounts_data (.inl rfl) (.inl text)
  · exact accounts_data (.inr rfl) (.inr binary)
  · exact accounts_close consistent
  · exact accounts_ping consistent
  · exact accounts_pong consistent
  · exact ⟨.ended (.inr rfl) (Nat.zero_le _), consistent⟩

/-! ## A call -/

/-- A call ends orderly, or it has read a length that is no offset. -/
def Settles (size : Nat) (state : State) (before : Object) : EStateM.Result Exn Object Octets → Prop :=
  Ensures (fun data object => Received size (payloadLeft state before) before data object ∧
      Coherent object.protocol ∧ ¬HugeLength state before)
    fun exn object => object.protocol = before.protocol ∧
      (exn = .socketError ∧ ¬HugeLength state before ∨
        exn = .constraintError ∧ HugeLength state before)

theorem settles_of_accounts {before before' : Object} {size left : Nat}
    {result : EStateM.Result Exn Object Octets} (not_huge : ¬HugeLength state before)
    (left_eq : payloadLeft state before = left) (same : before'.protocol = before.protocol)
    (accounts : Accounts size left before' result) : Settles size state before result := by
  refine (accounts.mono fun data object accounted => ?_).mono_raises fun exn object failed =>
    ⟨failed.2.trans same, .inl ⟨failed.1, not_huge⟩⟩
  obtain ⟨received, consistent⟩ := accounted
  refine ⟨?_, consistent, not_huge⟩
  rw [left_eq]
  cases received with
  | message kind length remaining => exact .message kind length remaining
  | control kind length protocol => exact .control kind length (protocol.trans same)
  | ended kind length => exact .ended kind length

/-- The opcode of an incomplete message is not that of a continuation. -/
theorem Coherent.opcd_ne {protocol : State} (consistent : Coherent protocol)
    (incomplete : protocol.remaining ≠ 0 ∨ protocol.lastFragment = false) :
    protocol.opcd ≠ oContinuation := by
  intro continuation
  have opcd := consistent incomplete
  rw [continuation] at opcd
  exact absurd opcd (by decide)

theorem settles_receive (size : Nat) (consistent : Coherent object.protocol)
    (copied : ∃ closeSent, object.protocol = { state with closeSent }) :
    Settles size state object (Object.receive around size state object) := by
  obtain ⟨closeSent, same⟩ := copied
  rw [Object.receive]
  split_ifs with boundary
  · have left_eq : payloadLeft state object =
        lengthRead (headerRead state object) (object.incoming.flatten.drop 2) := if_pos boundary
    have unread : ∀ exn object', Short 2 object exn object' → object'.protocol = object.protocol ∧
        (exn = .socketError ∧ ¬HugeLength state object ∨
          exn = .constraintError ∧ HugeLength state object) := by
      refine fun exn object' failed => ⟨failed.protocol, .inl ⟨failed.exn, fun huge => ?_⟩⟩
      have arrived := huge.arrived
      have short := failed.short
      omega
    refine ((ensures_readData 2 object).mono_raises unread).bind fun octets object' took => ?_
    obtain ⟨incoming, rfl, left⟩ := took.object
    have header_eq : Header.ofOctets octets = headerRead state object := by
      rw [headerRead, if_pos boundary, took.result]
    have huge_iff : IsHuge (headerRead state object) incoming.flatten ↔ HugeLength state object := by
      have arrived := took.arrived
      rw [IsHuge, left, List.length_drop]
      exact ⟨fun huge => ⟨boundary, by omega, huge.1, huge.2.2⟩,
        fun huge => ⟨huge.extended, by have := huge.arrived; omega, huge.huge⟩⟩
    rw [header_eq]
    refine ((ensures_readLength (headerRead state object) { object with incoming }).mono_raises
      fun exn object' failed => ⟨failed.1, failed.2.imp
        (fun short => ⟨short.1, fun huge => short.2 (huge_iff.mpr huge)⟩)
        fun long => ⟨long.1, huge_iff.mp long.2⟩⟩).bind fun length object' took' => ?_
    obtain ⟨incoming', rfl, _⟩ := took'.object
    have not_huge : ¬HugeLength state object := fun huge => took'.result.2 (huge_iff.mpr huge)
    have length_eq : payloadLeft state object = length := by
      rw [left_eq, took'.result.1]
      exact congrArg _ left.symm
    refine ((takesOnly_readMask (headerRead state object) state.mask
      { object with incoming := incoming' }).mono_raises fun exn object' failed =>
        ⟨failed.2, .inl ⟨failed.1, not_huge⟩⟩).bind fun mask object' took'' => ?_
    obtain ⟨-, incoming'', rfl⟩ := took''
    rw [Protected.get_bind]
    by_cases bad : Object.BadHeader (headerRead state object) object.protocol
    · rw [if_pos bad]
      exact ⟨.ended (.inr rfl) (Nat.zero_le _), consistent, not_huge⟩
    · have started : (if (headerRead state object).opcd = oContinuation then state.opcd
          else (headerRead state object).opcd) ≠ oContinuation := by
        split_ifs with continuation
        · have within : object.protocol.lastFragment = false := Bool.eq_false_iff.mpr fun complete =>
            bad (.inr (.inr (.inr (.inl ⟨continuation, complete⟩))))
          have opcd := consistent.opcd_ne (.inr within)
          rwa [same] at opcd
        · exact continuation
      rw [if_neg bad]
      exact @settles_of_accounts state object { object with incoming := incoming'' } size length _
        not_huge length_eq rfl (accounts_payload size consistent started)
  · have not_huge : ¬HugeLength state object := fun huge => boundary huge.boundary
    have left_eq : payloadLeft state object = state.remaining := if_neg boundary
    refine settles_of_accounts not_huge left_eq rfl (accounts_payload size consistent ?_)
    rw [same] at consistent
    exact consistent.opcd_ne (.inl boundary)

/-! ## Runs -/

/-- The state of an endpoint is consistent, and a `Receive` in progress has copied it. -/
structure Sound (endpoint : Endpoint) : Prop where
  consistent : Coherent endpoint.object.protocol
  copied : ∀ state ∈ endpoint.receiving,
    ∃ closeSent, endpoint.object.protocol = { state with closeSent }

/-- An operation that leaves the protocol state up to `Close_Sent`, and the `Receive` in progress. -/
theorem Sound.of_same {self next : Endpoint} (sound : Sound self)
    (receiving : next.receiving = self.receiving)
    (protocol : ∃ closeSent, next.object.protocol = { self.object.protocol with closeSent }) :
    Sound next := by
  obtain ⟨closeSent, same⟩ := protocol
  constructor
  · rw [same]
    exact sound.consistent
  · intro state copy
    rw [receiving] at copy
    obtain ⟨_, copied⟩ := sound.copied state copy
    exact ⟨closeSent, by rw [same, copied]⟩

theorem protocol_sendString (around : Surroundings) (data : Octets) (object : Object) :
    (after (Object.sendString around data object)).protocol = object.protocol := by
  unfold Object.sendString
  dsimp only
  split <;> rfl

theorem sound_of_step {self next : Endpoint} {operation : Operation} (sound : Sound self)
    (step : Endpoint.Steps self operation next) : Sound next := by
  obtain rfl := step
  cases operation with
  | send around message isBinary => exact sound.of_same rfl ⟨_, rfl⟩
  | sendString around message =>
      exact sound.of_same rfl ⟨_, protocol_sendString around message self.object⟩
  | close around data error => exact sound.of_same rfl ⟨true, rfl⟩
  | startReceive =>
      rw [Endpoint.step]
      split
      next => exact sound
      next =>
          refine ⟨sound.consistent, ?_⟩
          rintro state ⟨⟩
          exact ⟨_, rfl⟩
  | arrive chunk => exact sound.of_same rfl ⟨_, rfl⟩
  | receive around dataLength =>
      rw [Endpoint.step]
      split
      next state receiving =>
          refine ⟨?_, by rintro _ ⟨⟩⟩
          have settles := @settles_receive around state self.object dataLength sound.consistent
            (sound.copied state receiving)
          show Coherent (after _).protocol
          cases done : Object.receive around dataLength state self.object with
          | ok data object =>
              rw [done] at settles
              exact settles.2.1
          | error exn object =>
              rw [done] at settles
              show Coherent object.protocol
              rw [settles.1]
              exact sound.consistent
      next => exact sound

/-- `Receive` has returned a close frame or one that is not understood, or the socket has failed. -/
def IsLast : EStateM.Result Exn Object Octets → Prop :=
  Ensures (fun _ object => object.kind = .connectionClose ∨ object.kind = .unknown)
    fun exn _ => exn = .socketError

/-- `Read_Message` shuts the `WebSocket` down then. -/
theorem readMessage_isShutdown {reader : Reader} {around : Surroundings}
    (last : IsLast (Object.receive around 4096 reader.object.protocol reader.object)) :
    ∃ next, reader.readMessage around = .ok true next ∧ next.isShutdown = true := by
  rw [Reader.readMessage]
  cases done : Object.receive around 4096 reader.object.protocol reader.object with
  | ok data object =>
      rw [done] at last
      show ∃ next, Reader.handle data { reader with object } = _ ∧ _
      unfold Reader.handle
      obtain closed | unknown := last
      · have kind : { reader with object }.object.kind = .connectionClose := closed
        rw [kind]
        exact ⟨_, rfl, rfl⟩
      · have kind : { reader with object }.object.kind = .unknown := unknown
        rw [kind]
        exact ⟨_, rfl, rfl⟩
  | error exn object =>
      rw [done] at last
      obtain rfl : exn = .socketError := last
      exact ⟨_, rfl, rfl⟩

/-- Whatever has happened at an endpoint, `Receive` delivers data, handles a control frame, ends the
connection or raises `Socket_Error` exactly if it does not read a 64-bit length whose first bit is
set; and where it ends the connection, `Read_Message` shuts it down. -/
theorem receive_total_iff {final : Endpoint} {start : Object} {operations : List Operation}
    (fresh : start.protocol = {}) (run : Run Endpoint.Steps ⟨start, none⟩ operations final)
    {state : State} (receiving : state ∈ final.receiving) (around : Surroundings) (size : Nat) :
    (Total size (payloadLeft state final.object) final.object
        (Object.receive around size state final.object) ↔
      ¬HugeLength state final.object) ∧
    ∀ reader : Reader, reader.object = final.object →
      IsLast (Object.receive around 4096 reader.object.protocol reader.object) →
      ∃ next, reader.readMessage around = .ok true next ∧ next.isShutdown = true := by
  have sound : Sound final := by
    refine run.invariant Sound ⟨?_, by rintro _ ⟨⟩⟩ fun earlier step => sound_of_step earlier step
    show Coherent start.protocol
    rw [fresh]
    exact fun incomplete => absurd incomplete (by decide)
  have settles := @settles_receive around state final.object size sound.consistent
    (sound.copied state receiving)
  refine ⟨⟨?_, ?_⟩, fun reader _ last => readMessage_isShutdown last⟩
  · intro total huge
    cases done : Object.receive around size state final.object with
    | ok data object =>
        rw [done] at settles
        exact settles.2.2 huge
    | error exn object =>
        rw [done] at settles total
        obtain ⟨-, ⟨-, not_huge⟩ | ⟨raised, -⟩⟩ := settles
        · exact not_huge huge
        · rw [show exn = .socketError from total] at raised
          cases raised
  · intro not_huge
    refine (settles.mono fun data object settled => settled.1).mono_raises fun exn object raised => ?_
    obtain ⟨-, ⟨socket, -⟩ | ⟨-, huge⟩⟩ := raised
    · exact socket
    · exact absurd huge not_huge

/-- An object to which the octets of a short text have been sent. -/
def shortText : Object := { isClientSide := true, incoming := [[0x81, 0x02, 104, 105]] }

/-- The first frame that arrives. -/
theorem receive_total_text :
    Total 4096 (payloadLeft {} shortText) shortText (Object.receive zeros 4096 {} shortText) := by
  let operations : List Operation := [.arrive [0x81, 0x02, 104, 105], .startReceive]
  have run : Run Endpoint.Steps ⟨{ isClientSide := true }, none⟩ operations ⟨shortText, some {}⟩ :=
    .cons rfl (.cons rfl .nil)
  exact (@receive_total_iff _ _ _ rfl run {} rfl zeros 4096).1.mpr fun huge =>
    absurd huge.arrived (by decide)

/-- A binary frame that announces 2^63 octets raises `Constraint_Error`. -/
theorem huge_length_raises :
    ∃ final, Run Endpoint.Steps ⟨{ isClientSide := true }, none⟩
      [.arrive [0x82, 0x7F, 0x80, 0, 0, 0, 0, 0, 0, 0], .startReceive] final ∧
      ¬Total 4096 (payloadLeft {} final.object) final.object
        (Object.receive zeros 4096 {} final.object) := by
  refine ⟨_, .cons rfl (.cons rfl .nil), fun total => ?_⟩
  have raised : Exn.constraintError = .socketError := total
  cases raised

end WebSocket
end AdaWebServer

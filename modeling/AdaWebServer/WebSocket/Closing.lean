import AdaWebServer.Foundations.Execution
import AdaWebServer.WebSocket.ReadMessage

/-!
# The closing discipline

`Send` and `Close` write whatever has been written before, and so does the reply to a ping; only the
reply to a close frame looks at `Close_Sent`.  A `Receive` that waits while another task closes
stores a copy of the protocol state from before.  The runs in which no such step is made after a
close frame write one close frame at most and nothing after it.
-/

namespace AdaWebServer
namespace WebSocket

open Http2 (Octet Octets Exn)
open Execution

/-! ## Operations -/

/-- A `WebSocket`, and the copy of the protocol state of a `Receive` in progress. -/
structure Endpoint where
  object : Object
  receiving : Option State := none

/-- What may happen at an endpoint. -/
inductive Operation where
  /-- `Send`. -/
  | send (around : Surroundings) (message : Octets) (isBinary : Bool)
  /-- `Send` of the protocol with an `Unbounded_String`. -/
  | sendString (around : Surroundings) (message : Octets)
  /-- `Close`. -/
  | close (around : Surroundings) (data : Octets) (error : Nat)
  /-- `Receive` is called and waits for the socket. -/
  | startReceive
  /-- The peer sends octets. -/
  | arrive (chunk : Octets)
  /-- `Receive` goes on with what has arrived. -/
  | receive (around : Surroundings) (dataLength : Nat)

/-- The object after an action, whether it returns or raises. -/
def after {α : Type} : EStateM.Result Exn Object α → Object
  | .ok _ object => object
  | .error _ object => object

namespace Endpoint

/-- One operation. -/
def step (self : Endpoint) : Operation → Endpoint
  | .send around message isBinary =>
      { self with object := after (Object.send around message isBinary self.object) }
  | .sendString around message =>
      { self with object := after (Object.sendString around message self.object) }
  | .close around data error =>
      { self with object := after (Object.close around data error self.object) }
  | .startReceive =>
      match self.receiving with
      | some _ => self
      | none => { self with receiving := some self.object.protocol }
  | .arrive chunk =>
      { self with object := { self.object with incoming := self.object.incoming ++ [chunk] } }
  | .receive around dataLength =>
      match self.receiving with
      | some state =>
          { object := after (Object.receive around dataLength state self.object)
            receiving := none }
      | none => self

/-- The steps of an endpoint. -/
def Steps (before : Endpoint) (operation : Operation) (next : Endpoint) : Prop :=
  next = before.step operation

end Endpoint

/-- At most one close frame is written, and no frame after it. -/
def ClosedOnce (written : List (Opcode × Octets)) : Prop :=
  ∀ earlier frame later, written = earlier ++ frame :: later → frame.1 = oConnectionClose →
    later = []

/-! ## The condition -/

/-- The header that `Receive` looks at. -/
def headerRead (state : State) (object : Object) : Header :=
  Header.ofOctets (if state.remaining = 0 then object.incoming.flatten.take 2 else [0, 0])

/-- The opcode by which `Receive` proceeds. -/
def opcodeRead (state : State) (object : Object) : Opcode :=
  if state.remaining = 0 ∧ (headerRead state object).opcd ≠ oContinuation then
    (headerRead state object).opcd
  else
    state.opcd

/-- `Receive` would answer a ping. -/
def AnswersPing (state : State) (object : Object) : Prop :=
  opcodeRead state object = oPing ∧ Object.WholeControl (headerRead state object) ∧
    ¬Object.BadHeader (headerRead state object) object.protocol

instance (state : State) (object : Object) : Decidable (AnswersPing state object) :=
  inferInstanceAs (Decidable (_ ∧ _))

/-- `Receive` would store its copy of the protocol state. -/
def StoresData (state : State) (object : Object) : Prop :=
  (opcodeRead state object = oText ∨ opcodeRead state object = oBinary) ∧
    (state.remaining = 0 → ¬Object.BadHeader (headerRead state object) object.protocol)

instance (state : State) (object : Object) : Decidable (StoresData state object) :=
  inferInstanceAs (Decidable (_ ∧ _))

/-- Once `Close_Sent` is set there is no `Send` and no `Close`, no ping is received, and no data frame
by a `Receive` that was called before. -/
def Endpoint.Allowed (self : Endpoint) : Operation → Prop
  | .send _ _ _ | .sendString _ _ | .close _ _ _ => self.object.protocol.closeSent = false
  | .startReceive | .arrive _ => True
  | .receive _ _ =>
      self.object.protocol.closeSent = true →
        ∀ state ∈ self.receiving, ¬AnswersPing state self.object ∧
          (StoresData state self.object → state.closeSent = true)

/-! ## What an operation writes -/

/-- The action only takes octets from the socket. -/
def OnlyReads {α : Type} (action : Action α) : Prop :=
  ∀ object, ∃ incoming, after (action object) = { object with incoming }

theorem onlyReads_pure {α : Type} (result : α) : OnlyReads (pure result) :=
  fun object => ⟨object.incoming, rfl⟩

theorem onlyReads_throw {α : Type} (exn : Exn) : OnlyReads (throw exn : Action α) :=
  fun object => ⟨object.incoming, rfl⟩

theorem OnlyReads.bind {α β : Type} {action : Action α} {next : α → Action β}
    (first : OnlyReads action) (second : ∀ result, OnlyReads (next result)) :
    OnlyReads (action >>= next) := by
  intro object
  obtain ⟨incoming, same⟩ := first object
  show ∃ incoming, after (EStateM.bind action next object) = _
  rw [EStateM.bind]
  cases done : action object with
  | ok result object' =>
      rw [done] at same
      obtain ⟨incoming', same'⟩ := second result object'
      exact ⟨incoming', by rw [same', show object' = _ from same]⟩
  | error exn object' =>
      rw [done] at same
      exact ⟨incoming, same⟩

theorem onlyReads_data (count : Nat) : OnlyReads (Object.readData count) := by
  intro object
  rw [Object.readData]
  split
  · exact ⟨_, rfl⟩
  · exact ⟨_, rfl⟩

theorem onlyReads_length (header : Header) : OnlyReads (Object.readLength header) := by
  rw [Object.readLength]
  split_ifs
  · exact (onlyReads_data 2).bind fun _ => onlyReads_pure _
  · refine (onlyReads_data 8).bind fun d64 => ?_
    split_ifs
    · exact onlyReads_pure _
    · exact onlyReads_throw _
  · exact onlyReads_pure _

theorem onlyReads_mask (header : Header) (mask : MaskingKey) :
    OnlyReads (Object.readMask header mask) := by
  rw [Object.readMask]
  split_ifs
  · exact (onlyReads_data 4).bind fun _ => onlyReads_pure _
  · exact onlyReads_pure _

theorem onlyReads_payload (state : State) (length : Nat) :
    OnlyReads (Object.readPayload state length) :=
  (onlyReads_data length).bind fun _ => onlyReads_pure _

/-- What `Receive` does to the frames written and to `Close_Sent`, `copied` being `Close_Sent` in its
copy of the protocol state. -/
inductive Effect (stores answers : Prop) (copied : Bool) (before next : Object) : Prop
  /-- It writes nothing. -/
  | quiet (written : next.written = before.written)
      (closeSent : next.protocol.closeSent = before.protocol.closeSent)
  /-- It stores the copy of the protocol state. -/
  | stored (written : next.written = before.written)
      (closeSent : next.protocol.closeSent = copied) (data : stores)
  /-- It replies to a close frame. -/
  | closed (octets : Octets)
      (written : next.written = before.written ++ [(oConnectionClose, octets)])
      (unsent : before.protocol.closeSent = false) (closeSent : next.protocol.closeSent = true)
  /-- It answers a ping. -/
  | answered (octets : Octets) (written : next.written = before.written ++ [(oPong, octets)])
      (closeSent : next.protocol.closeSent = before.protocol.closeSent) (ping : answers)

/-- The effect on an object that has the same frames and the same `Close_Sent`. -/
theorem Effect.imp {stores answers stores' answers' : Prop} {copied : Bool}
    {before before' next : Object} (effect : Effect stores answers copied before next)
    (stored : stores → stores') (answered : answers → answers')
    (written : before.written = before'.written)
    (closeSent : before.protocol.closeSent = before'.protocol.closeSent) :
    Effect stores' answers' copied before' next := by
  cases effect with
  | quiet same same' => exact .quiet (same.trans written) (same'.trans closeSent)
  | stored same copy data => exact .stored (same.trans written) copy (stored data)
  | closed octets added unsent sent =>
      exact .closed octets (written ▸ added) (closeSent ▸ unsent) sent
  | answered octets added same ping =>
      exact .answered octets (written ▸ added) (same.trans closeSent) (answered ping)

theorem OnlyReads.cases {α : Type} {action : Action α} (reads : OnlyReads action)
    (object : Object) :
    (∃ result incoming, action object = .ok result { object with incoming }) ∨
      ∃ exn incoming, action object = .error exn { object with incoming } := by
  obtain ⟨incoming, same⟩ := reads object
  cases done : action object with
  | ok result object' =>
      rw [done] at same
      exact .inl ⟨result, incoming, by rw [show object' = _ from same]⟩
  | error exn object' =>
      rw [done] at same
      exact .inr ⟨exn, incoming, by rw [show object' = _ from same]⟩

theorem after_bind_ok {α β : Type} {action : Action α} {next : α → Action β}
    {object object' : Object} {result : α} (done : action object = .ok result object') :
    after ((action >>= next) object) = after (next result object') := by
  show after (EStateM.bind action next object) = _
  rw [EStateM.bind, done]

theorem after_bind_error {α β : Type} {action : Action α} {next : α → Action β}
    {object object' : Object} {exn : Exn} (done : action object = .error exn object') :
    after ((action >>= next) object) = object' := by
  show after (EStateM.bind action next object) = _
  rw [EStateM.bind, done]
  rfl

variable {around : Surroundings} {header : Header} {state : State}

/-- The effect of the payload of a frame. -/
abbrev PayloadEffect (header : Header) (state : State) : Object → Object → Prop :=
  Effect (state.opcd = oText ∨ state.opcd = oBinary)
    (state.opcd = oPing ∧ Object.WholeControl header) state.closeSent

theorem effect_data (kind : Kind) (toRead : Nat) (object : Object)
    (data : state.opcd = oText ∨ state.opcd = oBinary) :
    PayloadEffect header state object (after (Object.receiveData kind state toRead object)) := by
  have kind_set : Object.setKind kind object = .ok () { object with kind } := rfl
  rw [Object.receiveData, after_bind_ok kind_set]
  cases payload : Object.readPayload state toRead { object with kind } with
  | error exn object' =>
      obtain ⟨incoming, same⟩ := onlyReads_payload state toRead { object with kind }
      rw [payload] at same
      rw [after_bind_error payload, show object' = _ from same]
      exact .quiet rfl rfl
  | ok result object' =>
      obtain ⟨incoming, same⟩ := onlyReads_payload state toRead { object with kind }
      rw [payload] at same
      rw [after_bind_ok payload, show object' = _ from same]
      have stored : result.2.closeSent = state.closeSent := by
        rw [Object.readPayload] at payload
        rcases (onlyReads_data toRead).cases { object with kind } with
          ⟨octets, rest, read⟩ | ⟨exn, rest, read⟩
        · change EStateM.bind _ _ _ = _ at payload
          rw [EStateM.bind, read] at payload
          cases payload
          rfl
        · change EStateM.bind _ _ _ = _ at payload
          rw [EStateM.bind, read] at payload
          cases payload
      exact .stored rfl stored data

theorem effect_close (toRead : Nat) (object : Object) :
    PayloadEffect header state object (after (Object.receiveClose around header state toRead object)) := by
  rw [Object.receiveClose]
  rcases (onlyReads_payload state toRead).cases object with
    ⟨payload, incoming, read⟩ | ⟨exn, incoming, read⟩
  · rw [after_bind_ok read]
    split_ifs with whole
    · have errno_set : Object.setErrno (Object.closeErrno around payload.1)
          { object with incoming } = .ok () { object with
            incoming
            errno := Object.closeErrno around payload.1 } := rfl
      rw [after_bind_ok errno_set]
      cases sent : object.protocol.closeSent with
      | true =>
          have answered (errno : Nat) : Object.answerClose around payload.1
              { object with incoming, errno } = .ok () { object with incoming, errno } :=
            if_pos sent
          rw [after_bind_ok (answered _)]
          exact .quiet rfl rfl
      | false =>
          have answered (errno : Nat) : Object.answerClose around payload.1
              { object with incoming, errno } = Object.writeFrame around oConnectionClose
                (payload.1.drop 2) errno { object with
                  incoming
                  errno
                  protocol := { object.protocol with closeSent := true } } :=
            if_neg (by rw [sent]; exact Bool.false_ne_true)
          rw [after_bind_ok (answered _)]
          exact .closed _ rfl sent rfl
    · exact .quiet rfl rfl
  · rw [after_bind_error read]
    exact .quiet rfl rfl

theorem effect_ping (toRead : Nat) (object : Object) (ping : state.opcd = oPing) :
    PayloadEffect header state object (after (Object.receivePing around header state toRead object)) := by
  have kind_set : Object.setKind .ping object = .ok () { object with kind := .ping } := rfl
  rw [Object.receivePing, after_bind_ok kind_set]
  rcases (onlyReads_payload state toRead).cases { object with kind := .ping } with
    ⟨payload, incoming, read⟩ | ⟨exn, incoming, read⟩
  · rw [after_bind_ok read]
    split_ifs with whole
    · exact .answered _ rfl rfl ⟨ping, whole⟩
    · exact .quiet rfl rfl
  · rw [after_bind_error read]
    exact .quiet rfl rfl

theorem effect_pong (toRead : Nat) (object : Object) :
    PayloadEffect header state object (after (Object.receivePong header state toRead object)) := by
  have kind_set : Object.setKind .pong object = .ok () { object with kind := .pong } := rfl
  rw [Object.receivePong, after_bind_ok kind_set]
  rcases (onlyReads_payload state toRead).cases { object with kind := .pong } with
    ⟨payload, incoming, read⟩ | ⟨exn, incoming, read⟩
  · rw [after_bind_ok read]
    split_ifs with whole
    · exact .quiet rfl rfl
    · exact .quiet rfl rfl
  · rw [after_bind_error read]
    exact .quiet rfl rfl

variable (around header state) in
theorem effect_payload (dataLength : Nat) (object : Object) :
    PayloadEffect header state object
      (after (Object.receivePayload around dataLength header state object)) := by
  rw [Object.receivePayload]
  split_ifs with text binary close ping pong continuation
  · exact effect_data .text _ object (.inl text)
  · exact effect_data .binary _ object (.inr binary)
  · exact effect_close _ object
  · exact effect_ping _ object ping
  · exact effect_pong _ object
  · exact .quiet rfl rfl
  · exact .quiet rfl rfl

private theorem flatten_take_of_read {object object' : Object} {count : Nat} {data : Octets}
    (read : Object.readData count object = .ok data object') :
    object.incoming.flatten.take count = data := by
  rw [Object.readData] at read
  split at read
  next found =>
      cases read
      obtain ⟨size, content⟩ := Chunks.flatten_of_read found
      rw [content, ← size, List.take_left]
  next => cases read

variable (around state) in
/-- What a call of `Receive` does. -/
theorem effect_receive (dataLength : Nat) (object : Object) :
    Effect (StoresData state object) (AnswersPing state object) state.closeSent object
      (after (Object.receive around dataLength state object)) := by
  rw [Object.receive]
  split_ifs with boundary
  · rcases (onlyReads_data 2).cases object with ⟨octets, incoming, read⟩ | ⟨exn, incoming, read⟩
    · have header : headerRead state object = Header.ofOctets octets := by
        rw [headerRead, if_pos boundary, flatten_take_of_read read]
      rw [after_bind_ok read]
      rcases (onlyReads_length (Header.ofOctets octets)).cases { object with incoming } with
        ⟨remaining, incoming₂, length⟩ | ⟨exn, incoming₂, length⟩
      · rw [after_bind_ok length]
        rcases (onlyReads_mask (Header.ofOctets octets) state.mask).cases
            { object with incoming := incoming₂ } with
          ⟨mask, incoming₃, masked⟩ | ⟨exn, incoming₃, masked⟩
        · rw [after_bind_ok masked]
          have got : (get : Action Object) { object with incoming := incoming₃ } =
              .ok { object with incoming := incoming₃ } { object with incoming := incoming₃ } := rfl
          rw [after_bind_ok got]
          by_cases bad : Object.BadHeader (Header.ofOctets octets) object.protocol
          · rw [if_pos bad]
            exact .quiet rfl rfl
          · rw [if_neg bad]
            have opcode : opcodeRead state object =
                if (Header.ofOctets octets).opcd = oContinuation then state.opcd
                else (Header.ofOctets octets).opcd := by
              rw [opcodeRead, header]
              simp only [boundary, true_and, ne_eq, ite_not]
            have effect := effect_payload around (Header.ofOctets octets)
              { state with
                remaining
                mask
                hasMask := (Header.ofOctets octets).mask
                read := 0
                lastFragment := (Header.ofOctets octets).fin
                opcd := opcodeRead state object } dataLength { object with incoming := incoming₃ }
            rw [← opcode]
            exact effect.imp (fun data => ⟨data, fun _ => header ▸ bad⟩)
              (fun ping => ⟨ping.1, header ▸ ping.2, header ▸ bad⟩) rfl rfl
        · rw [after_bind_error masked]
          exact .quiet rfl rfl
      · rw [after_bind_error length]
        exact .quiet rfl rfl
    · rw [after_bind_error read]
      exact .quiet rfl rfl
  · have opcode : opcodeRead state object = state.opcd := if_neg fun both => boundary both.1
    exact (effect_payload around (Header.ofOctets [0, 0]) state dataLength object).imp
      (fun data => ⟨opcode ▸ data, fun start => absurd start boundary⟩)
      (fun ping => absurd ping.2.2 (by decide)) rfl rfl

/-! ## Runs -/

/-- What holds in the runs in question: a close frame has been written only when `Close_Sent` is set,
and nothing after it. -/
structure Closes (endpoint : Endpoint) : Prop where
  closeSent : (∃ frame ∈ endpoint.object.written, frame.1 = oConnectionClose) →
    endpoint.object.protocol.closeSent = true
  once : ClosedOnce endpoint.object.written

/-- A frame may be written as long as there is no close frame. -/
theorem ClosedOnce.append {written : List (Opcode × Octets)}
    (none_closed : ¬∃ frame ∈ written, frame.1 = oConnectionClose) (frame : Opcode × Octets) :
    ClosedOnce (written ++ [frame]) := by
  intro earlier closing later split closes
  rcases List.eq_nil_or_concat later with rfl | ⟨front, last, rfl⟩
  · rfl
  · rw [List.concat_eq_append, ← List.cons_append, ← List.append_assoc] at split
    have same := (List.append_inj' split rfl).1
    exact absurd ⟨closing, by rw [same]; simp, closes⟩ none_closed

theorem Closes.unsent {self : Endpoint} (closes : Closes self)
    (unsent : self.object.protocol.closeSent = false) :
    ¬∃ frame ∈ self.object.written, frame.1 = oConnectionClose := fun closed => by
  rw [closes.closeSent closed] at unsent
  cases unsent

/-- A frame other than a close frame is written before `Close_Sent` is set. -/
theorem Closes.write {self next : Endpoint} (closes : Closes self)
    (unsent : self.object.protocol.closeSent = false) {frame : Opcode × Octets}
    (written : next.object.written = self.object.written ++ [frame])
    (closed : frame.1 = oConnectionClose → next.object.protocol.closeSent = true) :
    Closes next := by
  constructor
  · rintro ⟨other, member, is_close⟩
    rw [written] at member
    rcases List.mem_append.mp member with earlier | last
    · exact absurd ⟨other, earlier, is_close⟩ (closes.unsent unsent)
    · rw [List.mem_singleton.mp last] at is_close
      exact closed is_close
  · rw [written]
    exact ClosedOnce.append (closes.unsent unsent) frame

theorem Closes.same {self next : Endpoint} (closes : Closes self)
    (written : next.object.written = self.object.written)
    (closeSent : self.object.protocol.closeSent = true → next.object.protocol.closeSent = true) :
    Closes next :=
  ⟨fun closed => closeSent (closes.closeSent (written ▸ closed)), written ▸ closes.once⟩

/-- An operation that is allowed keeps to the discipline. -/
theorem closes_of_step {self next : Endpoint} {operation : Operation} (closes : Closes self)
    (allowed : self.Allowed operation) (step : self.Steps operation next) : Closes next := by
  rw [Endpoint.Steps] at step
  subst step
  cases operation with
  | send around message isBinary =>
      refine closes.write allowed rfl fun is_close => ?_
      cases isBinary <;> cases is_close
  | sendString around message =>
      have opcode : dataOpcode self.object.kind ≠ oConnectionClose := by
        unfold dataOpcode
        split <;> decide
      have written : ∃ octets, (self.step (.sendString around message)).object.written =
          self.object.written ++ [(dataOpcode self.object.kind, octets)] := by
        simp only [Endpoint.step, Object.sendString]
        split <;> exact ⟨_, rfl⟩
      obtain ⟨octets, written⟩ := written
      exact closes.write allowed written fun is_close => absurd is_close opcode
  | close around data error => exact closes.write allowed rfl fun _ => rfl
  | startReceive =>
      rw [Endpoint.step]
      split
      · exact closes
      · exact closes.same rfl id
  | arrive chunk => exact closes.same rfl id
  | receive around dataLength =>
      cases receiving : self.receiving with
      | none =>
          have idle : self.step (.receive around dataLength) = self := by
            rw [Endpoint.step, receiving]
          rw [idle]
          exact closes
      | some state =>
          have done : self.step (.receive around dataLength) =
              { object := after (Object.receive around dataLength state self.object)
                receiving := none } := by
            rw [Endpoint.step, receiving]
          have allowed := fun sent => allowed sent state receiving
          rw [done]
          cases effect_receive around state dataLength self.object with
          | quiet written closeSent => exact closes.same written fun sent => closeSent.trans sent
          | stored written closeSent data =>
              exact closes.same written fun sent => closeSent.trans ((allowed sent).2 data)
          | closed octets written unsent closeSent =>
              exact closes.write unsent written fun _ => closeSent
          | answered octets written closeSent ping =>
              cases sent : self.object.protocol.closeSent with
              | true => exact absurd ping (allowed sent).1
              | false => exact closes.write sent written fun is_close => by cases is_close

/-- In every run of allowed operations on a `WebSocket` that has not closed, and whatever the peer
sends, at most one close frame is written and no frame after it. -/
theorem closed_once_of_run {start final : Endpoint} {operations : List Operation}
    (none_closed : ∀ frame ∈ start.object.written, frame.1 ≠ oConnectionClose)
    (run : Run (Guarded Endpoint.Allowed Endpoint.Steps) start operations final) :
    ClosedOnce final.object.written := by
  have closes : Closes final := by
    refine run.invariant Closes ⟨?_, ?_⟩ fun earlier step => closes_of_step earlier step.1 step.2
    · rintro ⟨frame, member, is_close⟩
      exact absurd is_close (none_closed frame member)
    · intro earlier frame later split is_close
      exact absurd is_close (none_closed frame (by rw [split]; simp))
  exact closes.once

/-- Surroundings in which every octet is zero. -/
def zeros : Surroundings := ⟨fun _ => 0, []⟩

/-- A fresh endpoint of a server. -/
def freshEndpoint : Endpoint := { object := { isClientSide := false } }

/-- A close frame of the peer crosses the one that was sent, and is not answered. -/
theorem closed_once_crossing :
    ∃ final, Run (Guarded Endpoint.Allowed Endpoint.Steps) freshEndpoint
      [.startReceive, .close zeros [] 1000, .arrive [0x88, 0x00], .receive zeros 4096] final ∧
      final.object.written.length = 1 ∧ ClosedOnce final.object.written := by
  let operations : List Operation :=
    [.startReceive, .close zeros [] 1000, .arrive [0x88, 0x00], .receive zeros 4096]
  have run : Run (Guarded Endpoint.Allowed Endpoint.Steps) freshEndpoint operations
      (operations.foldl Endpoint.step freshEndpoint) := by
    refine .cons ⟨trivial, rfl⟩ (.cons ⟨rfl, rfl⟩ (.cons ⟨trivial, rfl⟩ (.cons ⟨?_, rfl⟩ .nil)))
    rintro - state ⟨⟩
    exact ⟨by decide, fun data => absurd data (by decide)⟩
  exact ⟨_, run, rfl, closed_once_of_run (by decide) run⟩

/-- `Close` twice writes two close frames, and a ping that is received after `Close` is answered after
the close frame. -/
theorem frame_after_close :
    (∃ final, Run Endpoint.Steps freshEndpoint
      [.close zeros [] 1000, .close zeros [] 1000] final ∧ ¬ClosedOnce final.object.written) ∧
    ∃ final, Run Endpoint.Steps freshEndpoint
      [.close zeros [] 1000, .startReceive, .arrive [0x89, 0x00], .receive zeros 4096] final ∧
      ¬ClosedOnce final.object.written := by
  constructor
  · refine ⟨_, .cons rfl (.cons rfl .nil), fun once => ?_⟩
    have later := once [] _ _ rfl rfl
    exact absurd later (List.cons_ne_nil _ _)
  · refine ⟨_, .cons rfl (.cons rfl (.cons rfl (.cons rfl .nil))), fun once => ?_⟩
    have later := once [] _ _ rfl rfl
    exact absurd later (List.cons_ne_nil _ _)

end WebSocket
end AdaWebServer

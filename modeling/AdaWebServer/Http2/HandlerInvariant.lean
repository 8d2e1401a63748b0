import AdaWebServer.Http2.FramedMessage
import AdaWebServer.Http2.HandlerSteps

/-!
# Invariants of the protocol handler

What holds in every state that a connection reaches as long as the handler is not left: each stream
stands under its own identifier, the frames that wait are as long as they say, and the send window
of the connection is a `Natural`.
-/

namespace AdaWebServer
namespace Http2

open Resources Execution

/-! ## Frames -/

/-- The octets of data in a frame. -/
def Frame.dataOctets (self : Frame) : Nat :=
  match self.payload with
  | .data content => content.length
  | _ => 0

/-- A frame that may wait to be sent: one of a message, or an answer of the connection. -/
structure Frame.Queued (frame : Frame) : Prop where
  origin : ((frame.kind = .headers ∨ frame.kind = .continuation ∨ frame.kind = .data) ∧
      frame.streamId ≠ 0) ∨
    ((frame.kind = .ping ∨ frame.kind = .settings) ∧ frame.streamId = 0)
  length : frame.kind = .data → frame.length = frame.dataOctets

theorem Frame.Queued.stream_frame {frame : Frame} (queued : frame.Queued)
    (data : frame.kind = .data) : frame.streamId ≠ 0 := by
  rcases queued.origin with ⟨-, stream_frame⟩ | ⟨kind, -⟩
  · exact stream_frame
  · rw [data] at kind
    rcases kind with kind | kind <;> cases kind

theorem Frame.queued_answer {frame : Frame} (kind : frame.kind = .ping ∨ frame.kind = .settings)
    (connection_frame : frame.streamId = 0) : frame.Queued :=
  ⟨.inr ⟨kind, connection_frame⟩, fun data => by
    rw [data] at kind
    rcases kind with kind | kind <;> cases kind⟩

theorem Frame.dataOctets_of_kind {frame : Frame} (other : frame.kind ≠ .data) :
    frame.dataOctets = 0 := by
  unfold Frame.dataOctets
  split
  · next content payload => exact absurd (by rw [Frame.kind, payload]) other
  · rfl

/-- What opens a receive window is a window update. -/
theorem Stream.Opened.kind_eq {id : StreamId} {before after : Int} {updates : List Frame}
    (opened : Stream.Opened id before updates after) :
    ∀ update ∈ updates, update.kind = .windowUpdate := by
  cases opened with
  | kept => exact fun _ member => nomatch member
  | renewed nonneg low => exact List.forall_mem_singleton.mpr rfl

/-- The frames that `Received_Frame` sends are window updates. -/
theorem Stream.receivedFrame_updates {self : Stream} {ctx : Context} {frame : Frame} :
    ∀ update ∈ (self.receivedFrame ctx frame).1, update.kind = .windowUpdate := by
  have data_updates : ∀ {stream : Stream} {content : Octets},
      ∀ update ∈ (stream.receivedData ctx frame content).1, update.kind = .windowUpdate := by
    intro stream content update member
    unfold receivedData at member
    simp only at member
    split at member
    · cases member
    split at member
    · cases member
    next stream_done =>
    obtain ⟨_, opened, -⟩ := openStreamWindow_eq_ok stream_done
    split at member
    · exact opened.kind_eq update member
    · next connection_done =>
        obtain ⟨_, connection_opened, -⟩ := openConnectionWindow_eq_ok connection_done
        rcases List.mem_append.mp member with first | second
        · exact opened.kind_eq update first
        · exact connection_opened.kind_eq update second
  intro update member
  unfold receivedFrame at member
  simp only at member
  split at member
  · cases member
  split at member
  · cases member
  split at member
  · cases member
  unfold receivedContent at member
  split at member
  case h_5 => exact data_updates update member
  all_goals cases member

/-- What sending a frame changes in its stream. -/
theorem Stream.sendFrame_eq_ok {self next : Stream} {frame : Frame}
    (sent : self.sendFrame frame = .ok next) :
    next.id = self.id ∧ self.sendState frame = .ok next.state ∧
      next.flowSendWindow =
        (if frame.kind = .data then self.flowSendWindow - frame.length else self.flowSendWindow) ∧
      next.hFrames = self.hFrames ∧ next.flowReceiveWindow = self.flowReceiveWindow ∧
      next.uploadState = self.uploadState ∧ next.headerFound = self.headerFound := by
  obtain ⟨state, state_eq, sent⟩ := bind_eq_ok_iff.mp sent
  split at sent
  · next data =>
      cases sent
      exact ⟨rfl, state_eq, (if_pos data).symm, rfl, rfl, rfl, rfl⟩
  · next other =>
      cases sent
      exact ⟨rfl, state_eq, (if_neg other).symm, rfl, rfl, rfl, rfl⟩

namespace ProtocolHandler

variable {Resource : Type} {config : Config} {stack : Nat} {errorBody : Text}

/-- The connection window after a sent frame. -/
theorem charged_flowSendWindow (settings : Connection) (frame : Frame) :
    (charged settings frame).flowSendWindow =
      if frame.kind = .data then settings.flowSendWindow - frame.length
      else settings.flowSendWindow := by
  unfold charged
  split <;> rfl

/-! ## What is written -/

/-- The entries that an event adds to the trace all have a property. -/
def Adds (property : Entry → Prop) (before after : ProtocolHandler Resource) : Prop :=
  ∃ entries, after.trace = entries ++ before.trace ∧ ∀ entry ∈ entries, property entry

/-- An entry that is not a frame of a message: what has been received, opened or framed, and the
frames that the loop writes on its own account. -/
inductive Incidental : Entry → Prop
  | received (frame : Frame) : Incidental (.received frame)
  | opened (streamId : StreamId) : Incidental (.opened streamId)
  | framed (frames : List Frame) : Incidental (.framed frames)
  | notice (frame : Frame)
      (kind : frame.kind = .goAway ∨ frame.kind = .rstStream ∨ frame.kind = .windowUpdate) :
      Incidental (.sent frame)
  | pinged : Incidental (.sent pingAnswer)
  | settings (config : Config) : Incidental (.sent (.createSettings (toSet config) false))

section Adds

variable {property : Entry → Prop} {before middle after : ProtocolHandler Resource}

theorem Adds.of_eq (same : after.trace = before.trace) : Adds property before after :=
  ⟨[], same, by simp⟩

theorem Adds.trans (first : Adds property before middle) (second : Adds property middle after) :
    Adds property before after := by
  obtain ⟨front, front_eq, front_holds⟩ := first
  obtain ⟨back, back_eq, back_holds⟩ := second
  refine ⟨back ++ front, by rw [back_eq, front_eq, List.append_assoc], fun entry member => ?_⟩
  rcases List.mem_append.mp member with late | early
  · exact back_holds entry late
  · exact front_holds entry early

theorem Adds.single {entry : Entry} (same : after.trace = entry :: before.trace)
    (holds : property entry) : Adds property before after :=
  ⟨[entry], same, by simpa using holds⟩

theorem Adds.mono {wider : Entry → Prop} (adds : Adds property before after)
    (included : ∀ {entry}, property entry → wider entry) : Adds wider before after := by
  obtain ⟨entries, same, holds⟩ := adds
  exact ⟨entries, same, fun entry member => included (holds entry member)⟩

theorem adds_goAway (self : ProtocolHandler Resource) (error : ErrorCode) :
    Adds Incidental self (self.goAway error) :=
  .single rfl (.notice _ (.inl rfl))

theorem adds_raised (self : ProtocolHandler Resource) (exn : Exn) :
    Adds Incidental self (self.raised exn) := by
  cases exn with
  | socketError => exact .of_eq rfl
  | protocolError message => exact .of_eq rfl
  | refused code message => exact .single rfl (.notice _ (.inl rfl))
  | constraintError => exact .single rfl (.notice _ (.inl rfl))
  | storageError => exact .single rfl (.notice _ (.inl rfl))
  | userException => exact .single rfl (.notice _ (.inl rfl))

/-- A part of the handler is left by an exception, or goes on. -/
theorem adds_outcome {result : Except Exn (ProtocolHandler Resource)}
    (raises : ∀ exn, Adds property before (before.raised exn))
    (goes_on : ∀ next, result = .ok next → Adds property before next) :
    Adds property before (before.outcome result) := by
  cases result with
  | ok next => exact goes_on next rfl
  | error exn => exact raises exn

section Receiving

variable {frame : Frame} {answer : Except Exn (Response Resource)} {crowded : Bool}

private theorem adds_receiveControl (self : ProtocolHandler Resource) (frame : Frame) :
    Adds Incidental self (self.receiveControl frame) := by
  unfold receiveControl
  split
  · exact adds_raised self _
  · next controlled done =>
      simp only
      split
      · exact (Adds.of_eq rfl).trans (adds_goAway _ _)
      · exact .of_eq rfl

theorem adds_respond {stream : Stream} {prevState : StateKind}
    (raises : ∀ exn, Adds property before (before.raised exn))
    (current : before.streams stream.id = some stream) :
    Adds property before
      (before.outcome ((before.respond stream prevState answer crowded).map again)) := by
  apply adds_outcome raises
  intro next done
  cases responds : before.respond stream prevState answer crowded with
  | error exn =>
      rw [responds] at done
      cases done
  | ok responded =>
      rw [responds] at done
      cases done
      obtain ⟨keepAlive, uploadState, willClose, messages, rfl, -⟩ :=
        (respond_eq_ok current responds).state_eq
      exact .of_eq rfl

private theorem adds_received (self : ProtocolHandler Resource) (prevState : StateKind)
    (result : Except Exn Stream.Received) :
    Adds Incidental self (self.received prevState answer crowded result) := by
  cases result with
  | error exn => exact adds_raised self exn
  | ok result =>
      obtain ⟨stream, ctx, error⟩ := result
      simp only [received]
      split
      · exact .single rfl (.notice _ (.inr (.inl rfl)))
      split
      · exact (Adds.of_eq rfl).trans (adds_goAway _ _)
      · exact (Adds.of_eq rfl).trans (adds_respond (adds_raised _) (by simp [setStream]))

private theorem adds_receiveStream (self : ProtocolHandler Resource) :
    Adds Incidental self (self.receiveStream frame answer crowded) := by
  unfold receiveStream
  simp only
  split
  · exact (Adds.of_eq rfl).trans (adds_goAway _ _)
  · next admitted stream admits =>
      have created : Adds Incidental self admitted := by
        rcases admission_eq_some admits with ⟨-, rfl⟩ | ⟨-, -, -, -, rfl⟩
        · exact .of_eq rfl
        · exact .single rfl (.opened _)
      have updated : Adds Incidental admitted
          (admitted.sendAll (stream.receivedFrame admitted.ctx frame).1) := by
        refine ⟨_, rfl, fun entry member => ?_⟩
        obtain ⟨update, sent, rfl⟩ := List.mem_map.mp (List.mem_reverse.mp member)
        exact .notice update (.inr (.inr (Stream.receivedFrame_updates update sent)))
      exact (created.trans updated).trans (adds_received _ _ _)

private theorem adds_dispatch (self : ProtocolHandler Resource) :
    Adds Incidental self (self.dispatch frame answer crowded) := by
  unfold dispatch
  split
  · split
    · exact adds_goAway self _
    · exact .single rfl .pinged
  · exact adds_raised self _
  · exact .single rfl .pinged
  · split
    · exact adds_goAway self _
    split
    · exact adds_goAway self _
    split
    · exact adds_raised self _
    split
    · exact adds_goAway self _
    split
    · exact .of_eq rfl
    split
    · exact adds_receiveControl self frame
    · exact adds_receiveStream self

private theorem adds_receive (received : before.receive answer crowded = .ok after) :
    Adds Incidental before after := by
  unfold receive at received
  split at received
  · cases received
  · cases received
    exact adds_raised before _
  · next frame rest read =>
      cases received
      exact (Adds.single rfl (.received frame)).trans (adds_dispatch (before.take frame rest))

end Receiving

section Starting

private theorem adds_readPreface (read : before.readPreface = .ok after) :
    Adds Incidental before after := by
  unfold readPreface at read
  simp only at read
  split at read
  · cases read
  split at read
  · cases read
    exact .of_eq rfl
  · cases read
    exact .single rfl (.notice _ (.inl rfl))

private theorem adds_firstSettings (read : before.firstSettings = .ok after) :
    Adds Incidental before after := by
  unfold firstSettings at read
  split at read
  · cases read
  · cases read
    exact adds_raised before _
  · next frame rest taken =>
      have received : Adds Incidental before (before.take frame rest) :=
        .single rfl (.received frame)
      simp only at read
      split at read
      · split at read
        · cases read
          exact received.trans (.single rfl (.settings _))
        · cases read
          exact received.trans (adds_raised _ _)
      · cases read
        exact received.trans (adds_raised _ _)
      · cases read
        exact received.trans (adds_raised _ _)

private theorem adds_connect {checkPreface : Bool}
    (connected : before.connect checkPreface = .ok after) : Adds Incidental before after := by
  rw [connect_eq] at connected
  obtain ⟨next, read, connected⟩ := bind_eq_ok_iff.mp connected
  have opened : Adds Incidental before next := by
    split at read
    · exact adds_readPreface read
    · cases read
      exact .of_eq rfl
  split at connected
  · cases connected
    exact opened
  · exact opened.trans (adds_firstSettings connected)

end Starting

section Events

variable [StreamType Resource]

private theorem adds_turn (self : ProtocolHandler Resource) : Adds Incidental self self.turn := by
  unfold turn
  simp only
  split
  · exact .of_eq rfl
  split
  · exact (Adds.of_eq rfl).trans (adds_raised _ _)
  split
  · refine (Adds.of_eq rfl).trans (adds_outcome (adds_raised _) fun next done => ?_)
    obtain ⟨⟨frames, rest, tabEnc⟩, -, done⟩ := bind_eq_ok_iff.mp done
    simp only at done
    split at done
    · cases done
      exact .single rfl (.framed frames)
    · obtain ⟨opened, -, done⟩ := bind_eq_ok_iff.mp done
      cases done
      exact .single rfl (.framed frames)
  · exact .of_eq rfl

private theorem adds_upgrade {values : SettingsSet} {answer : Except Exn (Response Resource)}
    (upgraded : before.upgrade values answer = .ok after) : Adds Incidental before after := by
  obtain ⟨next, read, upgraded⟩ := bind_eq_ok_iff.mp upgraded
  split at upgraded
  · cases upgraded
    exact adds_readPreface read
  split at upgraded
  · cases upgraded
    exact (adds_readPreface read).trans (adds_raised _ _)
  · cases upgraded
    refine ((adds_readPreface read).trans (.single rfl (.settings _))).trans
      (adds_outcome (adds_raised _) fun answered done => ?_)
    obtain ⟨response, frames, message, tabEnc, -, -, rfl⟩ := answerUpgrade_eq_ok done
    exact ⟨[.framed frames, .opened 1], rfl, by simpa using And.intro (.framed frames) (.opened 1)⟩

theorem incidental_of_next {event : Event Resource} (stepped : before.next event = .ok after)
    (other : event ≠ .write) : Adds Incidental before after := by
  unfold next at stepped
  split at stepped
  · exact adds_connect stepped
  · exact adds_upgrade stepped
  · cases stepped
    exact .of_eq rfl
  · cases stepped
    exact adds_turn before
  · exact absurd rfl other
  · split at stepped
    · cases stepped
    · exact adds_receive stepped
  · unfold leave at stepped
    split_ifs at stepped <;> cases stepped <;> exact .of_eq rfl
  all_goals cases stepped <;> exact .of_eq rfl

/-- Writing adds the first frame that waits, when it is one of the connection or both windows allow
it; nothing else is written but the end of the connection. -/
theorem written_of_next (stepped : before.next .write = .ok after) :
    before.phase = .sending ∧ before.input = [] ∧ ∃ frame answers,
      before.answers = frame :: answers ∧
      (Adds Incidental before after ∨
        (frame.streamId = 0 ∨ ∃ stream, before.streams frame.streamId = some stream ∧
          before.CanSend frame stream) ∧
        Adds (fun entry => entry = .sent frame ∨ Incidental entry) before after) := by
  have phase : before.phase = .sending ∧ before.write = .ok after := by
    unfold next at stepped
    split at stepped <;> simp_all
  refine ⟨phase.1, ?_⟩
  have written := phase.2
  have sent : ∀ {frame : Frame} {exn : Exn}, Adds (fun entry => entry = .sent frame ∨
      Incidental entry) before ((before.send frame).raised exn) := fun {frame exn} =>
    (Adds.single rfl (.inl rfl)).trans ((adds_raised (before.send frame) exn).mono .inr)
  unfold write at written
  split at written
  · cases written
  · next frame answers waiting =>
      split at written
      · cases written
      · next quiet =>
          refine ⟨not_not.mp quiet, frame, answers, waiting, ?_⟩
          split at written
          · next connection_frame =>
              refine .inr ⟨.inl connection_frame, ?_⟩
              split at written
              · cases written
                exact sent
              · cases written
                exact .single rfl (.inl rfl)
          · split at written
            · cases written
              exact .inl (adds_raised before _)
            · next stream current =>
                split at written
                · next allowed =>
                    refine .inr ⟨.inr ⟨stream, current, allowed⟩, ?_⟩
                    split at written
                    · cases written
                      exact sent
                    · simp only at written
                      split at written
                      · cases written
                        exact .single rfl (.inl rfl)
                      · cases written
                        exact .single rfl (.inl rfl)
                · cases written

end Events

end Adds

/-! ## Runs -/

section Runs

variable [StreamType Resource]

/-- What holds at the start of a connection and is preserved by the steps of a handler that goes on
holds as long as the handler is not left. -/
theorem invariant_of_run {guard : ProtocolHandler Resource → Event Resource → Prop}
    {events : List (Event Resource)} {state : ProtocolHandler Resource}
    (property : ProtocolHandler Resource → Prop)
    (initially : property (create config stack errorBody))
    (preserved : ∀ {before after : ProtocolHandler Resource} {event : Event Resource},
      property before → guard before event → Step before event after → property after)
    (run : Run (Guarded guard (Computes next)) (create config stack errorBody) events state)
    (going_on : state.phase ≠ .closed) : property state := by
  refine run.invariant (fun state => state.phase ≠ .closed → property state)
    (fun _ => initially) ?_ going_on
  rintro before after event held ⟨allowed, stepped⟩ open_
  exact preserved (held (going_on_before stepped open_)) allowed (step_of_next stepped open_)

end Runs

/-! ## The invariant -/

/-- What holds in every state of a handler that has not been left. -/
structure Sound (handler : ProtocolHandler Resource) : Prop where
  stream_id : ∀ {id stream}, handler.streams id = some stream → stream.id = id ∧ id ≠ 0
  queued : ∀ frame ∈ handler.answers ++ handler.h2cAnswer, frame.Queued
  window_nonneg : 0 ≤ handler.ctx.settings.flowSendWindow
  window_le : handler.ctx.settings.flowSendWindow ≤ naturalLast
  fresh : handler.phase = .start → handler.streams = (fun _ => none) ∧ handler.answers = [] ∧
    handler.h2cAnswer = [] ∧ handler.deferredMessages = [] ∧ handler.trace = []

@[simp]
theorem create_flowSendWindow :
    (create config stack errorBody : ProtocolHandler Resource).ctx.settings.flowSendWindow =
      65535 := by
  rw [create, Context.create, Connection.configured_eq]
  rfl

theorem sound_create : Sound (create config stack errorBody : ProtocolHandler Resource) where
  stream_id := fun current => nomatch current
  queued := by simp [create]
  window_nonneg := by simp
  window_le := by simp [naturalLast]
  fresh := fun _ => ⟨rfl, rfl, rfl, rfl, rfl⟩

/-- The frames of a framed message are those of its header block and of its body. -/
theorem kind_of_framed [StreamType Resource] {message rest : Message Resource} {ctx : Context}
    {stream : Stream} {frames : List Frame} {tabEnc : Hpack.DynamicTable}
    (framed : message.Framed ctx stream frames rest tabEnc) :
    ∀ frame ∈ frames,
      (frame.kind = .headers ∨ frame.kind = .continuation ∨ frame.kind = .data) ∧
        frame.streamId = stream.id ∧ (frame.kind = .data → frame.length = frame.dataOctets) := by
  obtain ⟨list, blocks, pieces, rfl, sealed, origin⟩ := framed.parts
  have headers : ∀ frame ∈ blocks,
      (frame.kind = .headers ∨ frame.kind = .continuation) ∧ frame.streamId = stream.id := by
    refine sealed.forall (fun _ block => block) ?_
    split at origin
    · simp [origin.1]
    · intro frame member
      have block := headerFrames_ofBlock origin frame member
      exact ⟨block.kind, block.stream⟩
  intro frame member
  rcases List.mem_append.mp member with block | piece
  · obtain ⟨kind, same⟩ := headers frame block
    refine ⟨by tauto, same, fun data => ?_⟩
    rw [data] at kind
    rcases kind with kind | kind <;> cases kind
  · obtain ⟨piece, -, rfl⟩ := List.mem_map.mp piece
    exact ⟨.inr (.inr rfl), rfl, fun _ => rfl⟩

/-- Every frame of a framed message may wait to be sent. -/
theorem queued_of_framed [StreamType Resource] {message rest : Message Resource} {ctx : Context}
    {stream : Stream} {frames : List Frame} {tabEnc : Hpack.DynamicTable}
    (framed : message.Framed ctx stream frames rest tabEnc) (stream_id : stream.id ≠ 0) :
    ∀ frame ∈ frames, frame.Queued := by
  intro frame member
  obtain ⟨kind, same, length⟩ := kind_of_framed framed frame member
  exact ⟨.inl ⟨kind, same ▸ stream_id⟩, length⟩

theorem stream_id_update {streams : StreamId → Option Stream} {next : Stream} {key : StreamId}
    (stream_id : ∀ {id stream}, streams id = some stream → stream.id = id ∧ id ≠ 0)
    (next_id : next.id = key) (nonzero : key ≠ 0) {id : StreamId} {stream : Stream}
    (current : Function.update streams key (some next) id = some stream) :
    stream.id = id ∧ id ≠ 0 := by
  by_cases same : id = key
  · subst same
    rw [Function.update_self] at current
    cases current
    exact ⟨next_id, nonzero⟩
  · rw [Function.update_of_ne same] at current
    exact stream_id current

@[simp]
theorem addFlowControl_zero (streams : StreamId → Option Stream) :
    addFlowControl streams 0 = streams := by
  funext id
  simp [addFlowControl]

theorem addFlowControl_id {streams : StreamId → Option Stream} {addFC : Int} {id : StreamId}
    {stream : Stream} (current : addFlowControl streams addFC id = some stream) :
    ∃ earlier, streams id = some earlier ∧
      stream = if addFC ≠ 0 ∧ Connection.flowControlWindowValid earlier.flowSendWindow addFC then
        earlier.updateFlowControlWindow addFC else earlier := by
  obtain ⟨earlier, found, rfl⟩ := Option.map_eq_some_iff.mp current
  exact ⟨earlier, found, rfl⟩

variable {before after : ProtocolHandler Resource} {frame : Frame}

/-! ## Frames of a stream -/

/-- The stream of a frame was there, or it has been created. -/
inductive Admits (before : ProtocolHandler Resource) (frame : Frame) :
    Stream → List Entry → Nat → StreamId → Prop
  | current {stream : Stream} (found : before.streams frame.streamId = some stream) :
      Admits before frame stream [] before.streamOpened before.lastSid
  | fresh (absent : before.streams frame.streamId = none)
      (few : before.streamOpened < before.maxStream)
      (ordered : frame.kind ≠ .priority → before.lastSid ≤ frame.streamId) :
      Admits before frame (Stream.create frame.streamId before.ctx.settings.initialWindowSize)
        [.opened frame.streamId] (before.streamOpened + 1)
        (if frame.kind ≠ .priority then frame.streamId else before.lastSid)

/-- What a frame that its stream has accepted leaves. -/
inductive Served (before : ProtocolHandler Resource) (frame : Frame) :
    ProtocolHandler Resource → Prop
  | intro (stream next : Stream) (ctx : Context) (updates : List Frame) (opened : List Entry)
      (streamOpened : Nat) (lastSid : StreamId) (keepAlive : Bool) (uploadState : UploadState)
      (willClose : Bool) (messages : List (Message Resource))
      (admits : Admits before frame stream opened streamOpened lastSid)
      (stream_id : stream.id = frame.streamId)
      (received : stream.receivedFrame before.ctx frame = (updates, .ok ⟨next, ctx, .noError⟩))
      (accepts : stream.Accepts before.ctx frame next ctx)
      (few : messages.length ≤ 1)
      (fresh : ∀ message ∈ messages, message.streamId = frame.streamId ∧ message.hSent = false) :
      Served before frame { before with
        phase := .head
        ctx
        streams := Function.update before.streams frame.streamId
          (some { next with keepAlive, uploadState })
        deferredMessages := before.deferredMessages ++ messages
        answers := before.answers ++ before.h2cAnswer
        h2cAnswer := []
        willClose
        streamOpened
        lastSid
        inHeader := (frame.kind = Kind.headers ∨ frame.kind = Kind.continuation) ∧
          ¬ frame.hasFlag endHeadersFlag
        trace := (updates.map Entry.sent).reverse ++ opened ++ before.trace }

theorem served_of_handled {admitted responded : ProtocolHandler Resource} {stream next : Stream}
    {ctx : Context} {updates : List Frame} {answer : Except Exn (Response Resource)} {crowded : Bool}
    {octets rest : Octets}
    (stream_id : ∀ {id stream}, before.streams id = some stream → stream.id = id ∧ id ≠ 0)
    (read : Frame.read before.ctx.settings octets = .ok (frame, rest))
    (valid : frame.IsValid before.ctx.settings)
    (admits : { before with
      inHeader := (frame.kind = Kind.headers ∨ frame.kind = Kind.continuation) ∧
        ¬ frame.hasFlag endHeadersFlag }.admission frame = some (admitted, stream))
    (received : stream.receivedFrame admitted.ctx frame = (updates, .ok ⟨next, ctx, .noError⟩))
    (responds : { (admitted.sendAll updates).setStream next with ctx }.respond next stream.state
      answer crowded = .ok responded) : Served before frame responded.again := by
  obtain ⟨keepAlive, uploadState, willClose, messages, same, few, fresh⟩ := stream_result responds
  have is_read := Frame.isRead_of_valid read valid
  rw [same]
  rcases admission_eq_some admits with ⟨current, rfl⟩ | ⟨absent, small, ordered, rfl, rfl⟩
  · have accepts := Stream.receivedFrame_accepts is_read (congrArg Prod.snd received) rfl
    have id_eq : stream.id = frame.streamId := (stream_id current).1
    have next_id : next.id = frame.streamId := accepts.id.trans id_eq
    rw [next_id] at fresh ⊢
    have found : Admits before frame stream [] before.streamOpened before.lastSid :=
      .current current
    have served := Served.intro stream next ctx updates [] _ _ keepAlive uploadState willClose
      messages found id_eq received accepts few fresh
    simp only [List.append_nil, next_id] at served
    exact served
  · have accepts := Stream.receivedFrame_accepts is_read (congrArg Prod.snd received) rfl
    have next_id : next.id = frame.streamId := accepts.id
    rw [next_id] at fresh ⊢
    have created : Admits before frame _ _ _ _ := .fresh absent small ordered
    have served := Served.intro _ next ctx updates _ _ _ keepAlive uploadState willClose messages
      created rfl received accepts few fresh
    simp only [setStream, Stream.create, Function.update_idem, List.append_assoc,
      List.singleton_append, next_id] at served ⊢
    exact served

private theorem sound_of_handled {answer : Except Exn (Response Resource)} {crowded : Bool}
    {octets rest : Octets} (sound : Sound before)
    (read : Frame.read before.ctx.settings octets = .ok (frame, rest))
    (handled : Handled before frame answer crowded after) : Sound after := by
  have waiting : ∀ frame ∈ (before.answers ++ before.h2cAnswer) ++ [], frame.Queued := by
    simpa only [List.append_nil] using sound.queued
  cases handled with
  | ignored unknown =>
      exact ⟨sound.stream_id, waiting, sound.window_nonneg, sound.window_le, (by rintro ⟨⟩)⟩
  | control controlled valid defined connection_frame done accepted =>
      have stream_id : ∀ {id stream},
          addFlowControl before.streams controlled.addFlowControl id = some stream →
            stream.id = id ∧ id ≠ 0 := by
        intro id stream current
        obtain ⟨earlier, found, rfl⟩ := addFlowControl_id current
        have same := sound.stream_id found
        split <;> exact same
      have window : 0 ≤ controlled.settings.flowSendWindow ∧
          controlled.settings.flowSendWindow ≤ naturalLast ∧
            ∀ frame ∈ controlled.answers ++ before.h2cAnswer, frame.Queued := by
        cases Connection.controlEffect done with
        | ponged kind same =>
            subst same
            refine ⟨sound.window_nonneg, sound.window_le, ?_⟩
            rintro other (_ | ⟨_, member⟩)
            · exact Frame.queued_answer (.inl kind) connection_frame
            · exact sound.queued other member
        | acknowledged kind acknowledges same =>
            subst same
            refine ⟨sound.window_nonneg, sound.window_le, ?_⟩
            rintro other (_ | ⟨_, member⟩)
            · exact Frame.queued_answer (.inr rfl) rfl
            · exact sound.queued other member
        | recorded values payload fresh recorded answered change accepted =>
            rw [(Connection.set_windows recorded).1, answered]
            refine ⟨sound.window_nonneg, sound.window_le, ?_⟩
            rintro frame (_ | ⟨_, member⟩)
            · exact Frame.queued_answer (.inr rfl) rfl
            · exact sound.queued frame member
        | credited increment payload valid same =>
            subst same
            simp only [Connection.flowControlWindowValid, Bool.or_eq_true, decide_eq_true_eq]
              at valid
            have nonneg := sound.window_nonneg
            have le := sound.window_le
            simp only [Connection.updateFlowControlWindow, naturalLast] at le ⊢
            exact ⟨by omega, by omega, sound.queued⟩
        | overflowed increment payload invalid same =>
            subst same
            cases accepted
        | ignored quiet other same =>
            subst same
            exact ⟨sound.window_nonneg, sound.window_le, sound.queued⟩
      refine ⟨stream_id, ?_, window.1, window.2.1, (by rintro ⟨⟩)⟩
      simpa only [again, List.append_nil] using window.2.2
  | stream admitted responded stream next ctx updates valid defined stream_frame admits received
      responds =>
      have served := served_of_handled sound.stream_id read valid admits received responds
      generalize responded.again = after at served ⊢
      cases served with
      | intro stream next ctx updates opened streamOpened lastSid keepAlive uploadState willClose
          messages admits stream_id received accepts few fresh =>
          have next_id : next.id = frame.streamId := accepts.id.trans stream_id
          have window : ctx.settings.flowSendWindow = before.ctx.settings.flowSendWindow :=
            accepts.connection_window
          have same : ({ next with keepAlive, uploadState } : Stream).id = frame.streamId := next_id
          exact ⟨stream_id_update sound.stream_id same stream_frame, waiting,
            window ▸ sound.window_nonneg, window ▸ sound.window_le, (by rintro ⟨⟩)⟩

section Steps

variable [StreamType Resource] {event : Event Resource}

theorem sound_of_step (sound : Sound before) (step : Step before event after) : Sound after := by
  cases step with
  | connected frame values settings octets input phase opened read payload recorded =>
      have window := (Connection.set_windows recorded).1
      exact ⟨sound.stream_id, sound.queued, window ▸ sound.window_nonneg, window ▸ sound.window_le,
        nofun⟩
  | upgraded settings response frames message tabEnc input phase opened recorded framed =>
      have window := (Connection.set_windows recorded).1
      obtain ⟨streams, answers, -⟩ := sound.fresh phase
      refine ⟨stream_id_update sound.stream_id (by rfl) Nat.one_ne_zero, ?_, window ▸ sound.window_nonneg,
        window ▸ sound.window_le, nofun⟩
      rw [answers]
      exact queued_of_framed (Message.framed_of_toFrames framed) Nat.one_ne_zero
  | arrived octets =>
      exact ⟨sound.stream_id, sound.queued, sound.window_nonneg, sound.window_le, sound.fresh⟩
  | waited phase =>
      exact ⟨sound.stream_id, sound.queued, sound.window_nonneg, sound.window_le, nofun⟩
  | framed message rest others stream frames tabEnc phase deferred current allowed framed counted =>
      refine ⟨sound.stream_id, ?_, sound.window_nonneg, sound.window_le, nofun⟩
      have made := queued_of_framed (Message.framed_of_toFrames framed)
        ((sound.stream_id current).1 ▸ (sound.stream_id current).2)
      intro frame member
      rcases List.mem_append.mp member with waiting | upgraded
      · rcases List.mem_append.mp waiting with earlier | new
        · exact sound.queued frame (List.mem_append_left _ earlier)
        · exact made frame new
      · exact sound.queued frame (List.mem_append_right _ upgraded)
  | wroteControl frame answers phase quiet waiting connection_frame =>
      refine ⟨sound.stream_id, ?_, sound.window_nonneg, sound.window_le, ?_⟩
      · intro other member
        refine sound.queued other ?_
        rw [waiting]
        exact List.mem_cons_of_mem _ member
      · intro start
        rw [send, phase] at start
        cases start
  | wroteStream frame answers stream next phase quiet waiting stream_frame current allowed sent =>
      have queued : frame.Queued := sound.queued frame (by simp [waiting])
      have next_id : next.id = frame.streamId :=
        (Stream.sendFrame_eq_ok sent).1.trans (sound.stream_id current).1
      have stream_id : ∀ {id stream}, Function.update before.streams next.id (some next) id =
          some stream → stream.id = id ∧ id ≠ 0 :=
        stream_id_update sound.stream_id rfl (next_id ▸ stream_frame)
      have window := charged_flowSendWindow before.ctx.settings frame
      have nonneg := sound.window_nonneg
      have small := sound.window_le
      refine ⟨?_, ?_, ?_, ?_, ?_⟩
      · intro id stream found
        simp only at found
        split at found
        · by_cases same : id = frame.streamId
          · rw [same, Function.update_self] at found
            cases found
          · rw [Function.update_of_ne same] at found
            exact stream_id found
        · exact stream_id found
      · intro other member
        refine sound.queued other ?_
        rw [waiting]
        exact List.mem_cons_of_mem _ member
      · simp only [window]
        split
        · next data =>
            have fits := allowed data
            omega
        · exact nonneg
      · simp only [window]
        split <;> omega
      · intro start
        rw [send, phase] at start
        cases start
  | received frame rest after phase read handled =>
      have taken : Sound (before.take frame rest) :=
        ⟨sound.stream_id, sound.queued, sound.window_nonneg, sound.window_le, by simp [take, phase]⟩
      exact sound_of_handled taken read handled
  | parked phase idle quiet =>
      exact ⟨sound.stream_id, sound.queued, sound.window_nonneg, sound.window_le, nofun⟩
  | resumed phase =>
      exact ⟨nofun, by simp [resume], sound.window_nonneg, sound.window_le, nofun⟩

theorem config_of_step (sound : Sound before) (step : Step before event after) :
    after.ctx.config = before.ctx.config := by
  cases step with
  | received frame rest after phase read handled =>
      cases handled with
      | stream admitted responded stream next ctx updates valid defined stream_frame admits received
          responds =>
          have served : Served (before.take frame rest) frame responded.again :=
            served_of_handled sound.stream_id read valid admits received responds
          generalize responded.again = after at served ⊢
          cases served with
          | intro stream next ctx updates opened streamOpened lastSid keepAlive uploadState willClose
              messages admits stream_id received accepts few fresh => exact accepts.config
      | _ => rfl
  | _ => rfl

/-- The invariant holds in every state of a handler that has not been left. -/
theorem sound_of_run {guard : ProtocolHandler Resource → Event Resource → Prop}
    {events : List (Event Resource)} {state : ProtocolHandler Resource}
    (run : Run (Guarded guard (Computes next)) (create config stack errorBody) events state)
    (going_on : state.phase ≠ .closed) : Sound state :=
  invariant_of_run Sound sound_create (fun sound _ step => sound_of_step sound step) run going_on

end Steps

end ProtocolHandler

end Http2
end AdaWebServer

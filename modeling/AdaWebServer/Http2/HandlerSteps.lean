import AdaWebServer.Http2.ProtocolHandler

/-!
# Steps of the protocol handler

What an event does, case by case, as long as the handler is not left; and that leaving it sends no
more than the frames that announce it.
-/

namespace AdaWebServer
namespace Http2

open Resources

/-! ## Frames that pass the checks -/

namespace Frame

theorem readSettings_payload {length : Nat} {flags : Octet} {streamId : StreamId}
    {octets rest : Octets} {frame : Frame}
    (read : readSettings length flags streamId octets = .ok (frame, rest)) :
    ∃ values, frame.payload = .settings values := by
  simp only [readSettings] at read
  split at read
  · cases read
    exact ⟨_, rfl⟩
  · obtain ⟨⟨data, left⟩, -, read⟩ := bind_eq_ok_iff.mp read
    simp only at read
    split at read
    · cases read
      exact ⟨_, rfl⟩
    · cases read
      exact ⟨_, rfl⟩

theorem validateHeader_invalid {settings : Connection} {length : Nat} {error : ErrorCode}
    (checked : validateHeader settings .invalid length = .ok error) : error ≠ .noError := by
  obtain ⟨limit, -, checked⟩ := bind_eq_ok_iff.mp checked
  split at checked
  · cases checked
    decide
  · cases checked
    decide

theorem payloadOf_ne_unread {kind unread : Kind} (content : Octets) (settings : kind ≠ .settings)
    (invalid : kind ≠ .invalid) : payloadOf kind content ≠ .unread unread := by
  cases kind <;> simp_all [payloadOf]

theorem payloadOf_ne_settings (kind : Kind) (content : Octets) (values : Option SettingsSet) :
    payloadOf kind content ≠ .settings values := by
  cases kind <;> exact nofun

/-- A frame that passes the checks of the loop has been read entirely. -/
theorem isRead_of_valid {frame : Frame} {settings : Connection} {octets rest : Octets}
    (read : Frame.read settings octets = .ok (frame, rest))
    (valid : frame.validate settings = .ok .noError) : frame.IsRead := by
  intro unread payload
  obtain ⟨⟨header, after⟩, -, read⟩ := bind_eq_ok_iff.mp read
  obtain ⟨error, checked, read⟩ := bind_eq_ok_iff.mp read
  split at read
  · next refused =>
      cases read
      exact refused (Except.ok.inj (checked.symm.trans valid))
  · next accepted =>
      split at read
      · obtain ⟨values, same⟩ := readSettings_payload read
        rw [same] at payload
        cases payload
      · next settings =>
          obtain ⟨⟨content, left⟩, -, read⟩ := bind_eq_ok_iff.mp read
          cases read
          refine payloadOf_ne_unread content settings (fun invalid => ?_) payload
          rw [invalid] at checked
          exact accepted fun same => validateHeader_invalid checked same

/-- A window update that has been read is valid, unless its increment is 0. -/
theorem validate_windowUpdate {frame : Frame} {settings : Connection} {octets rest : Octets}
    {increment : Nat} (read : Frame.read settings octets = .ok (frame, rest))
    (payload : frame.payload = .windowUpdate increment) (nonzero : increment ≠ 0) :
    frame.validate settings = .ok .noError := by
  have kind_eq : frame.kind = .windowUpdate := by rw [kind, payload]
  rw [validate, payload, kind_eq]
  simp only [nonzero, if_false]
  obtain ⟨⟨header, after⟩, -, read⟩ := bind_eq_ok_iff.mp read
  obtain ⟨error, checked, read⟩ := bind_eq_ok_iff.mp read
  split at read
  · cases read
    cases payload
  next accepted =>
  split at read
  · obtain ⟨values, same⟩ := readSettings_payload read
    rw [same] at payload
    cases payload
  · obtain ⟨⟨content, left⟩, -, read⟩ := bind_eq_ok_iff.mp read
    cases read
    have octet_kind : Kind.ofOctet (header.getD 3 0) = .windowUpdate := by
      simp only at payload
      cases known : Kind.ofOctet (header.getD 3 0) <;> rw [known] at payload <;> cases payload
    rw [octet_kind] at checked
    exact checked.trans (congrArg _ (not_not.mp accepted))

/-- A valid acknowledgement has no settings. -/
theorem values_of_acknowledgement {frame : Frame} {settings : Connection} {octets rest : Octets}
    {values : SettingsSet} (read : Frame.read settings octets = .ok (frame, rest))
    (valid : frame.validate settings = .ok .noError)
    (payload : frame.payload = .settings (some values)) (acknowledges : frame.hasFlag ackFlag) :
    values = [] := by
  have empty : frame.length = 0 := by
    by_contra nonempty
    rw [validate, payload] at valid
    simp only [acknowledges] at valid
    split at valid
    · cases valid
    · rw [if_pos ⟨trivial, nonempty⟩] at valid
      cases valid
  obtain ⟨⟨header, after⟩, -, read⟩ := bind_eq_ok_iff.mp read
  obtain ⟨error, -, read⟩ := bind_eq_ok_iff.mp read
  split at read
  · cases read
    cases payload
  split at read
  · simp only [readSettings] at read
    split at read
    · cases read
      cases payload
      rfl
    · next whole =>
        obtain ⟨⟨data, left⟩, -, read⟩ := bind_eq_ok_iff.mp read
        simp only at read
        split at read
        · cases read
          cases payload
        · next known =>
            cases read
            cases payload
            have present := List.length_pos_iff.mpr known
            simp only at empty
            omega
  · next other =>
      obtain ⟨⟨content, left⟩, -, read⟩ := bind_eq_ok_iff.mp read
      cases read
      exact absurd payload (payloadOf_ne_settings _ _ _)

end Frame

namespace ProtocolHandler

variable {Resource : Type}

/-! ## Answers -/

/-- What handling a request leaves: the stream keeps all but the outcome of the upload and of the
response, and at most one new message is deferred. -/
structure Responds (before : ProtocolHandler Resource) (stream : Stream)
    (after : ProtocolHandler Resource) : Prop where
  state_eq : ∃ keepAlive uploadState willClose messages,
    after = { before with
      streams := Function.update before.streams stream.id
        (some { stream with keepAlive, uploadState })
      willClose
      deferredMessages := before.deferredMessages ++ messages } ∧
    messages.length ≤ 1 ∧
    ∀ message ∈ messages, message.streamId = stream.id ∧ message.hSent = false

variable {before after : ProtocolHandler Resource} {stream : Stream}
  {answer : Except Exn (Response Resource)} {crowded : Bool}

private theorem handleUpload_eq_ok (handled : before.handleUpload stream answer = .ok after) :
    Responds before stream after := by
  obtain ⟨response, -, handled⟩ := bind_eq_ok_iff.mp handled
  cases handled
  exact ⟨response.keepAlive, stream.uploadState, before.willClose, [response.toMessage stream.id],
    rfl, le_rfl, by simp [Response.toMessage]⟩

private theorem handleMessage_eq_ok
    (handled : before.handleMessage stream answer crowded = .ok after) :
    Responds before stream after := by
  rw [handleMessage] at handled
  split at handled
  · cases handled
  · obtain ⟨response, -, handled⟩ := bind_eq_ok_iff.mp handled
    cases handled
    let undefined := stream.uploadState = .oversize ∧ response.isContinue
    let defined := ¬ undefined ∧ (response.toMessage stream.id).isDefined
    refine ⟨if undefined then stream.keepAlive else response.keepAlive,
      if stream.uploadState = .oversize then (if ¬ defined then .accepted else .rejected)
        else stream.uploadState, crowded,
      if defined then [response.toMessage stream.id] else [], ?_, ?_, ?_⟩
    · by_cases oversize : stream.uploadState = .oversize <;>
        by_cases continues : response.isContinue <;>
        by_cases sendable : (response.toMessage stream.id).isDefined <;>
        simp [undefined, defined, oversize, continues, sendable, setStream, Stream.uploadDecision]
    · split <;> simp
    · split <;> simp [Response.toMessage]

theorem respond_eq_ok {prevState : StateKind} (current : before.streams stream.id = some stream)
    (responded : before.respond stream prevState answer crowded = .ok after) :
    Responds before stream after := by
  have unchanged : Responds before stream before := by
    refine ⟨stream.keepAlive, stream.uploadState, before.willClose, [], ?_, by simp, by simp⟩
    rw [show ({ stream with keepAlive := stream.keepAlive, uploadState := stream.uploadState } :
      Stream) = stream from rfl, ← current, Function.update_eq_self, List.append_nil]
  unfold respond at responded
  split_ifs at responded
  · exact handleUpload_eq_ok responded
  · exact handleMessage_eq_ok responded
  · cases responded
    exact unchanged
  · exact handleMessage_eq_ok responded
  · cases responded
    exact unchanged

/-! ## Handled frames -/

/-- The frame that `K_Invalid` and ignored settings are answered with. -/
def pingAnswer : Frame := .createPing Frame.defaultPingData endStreamFlag

/-- What handling a frame leaves when the handler goes on. -/
inductive Handled (taken : ProtocolHandler Resource) (frame : Frame)
    (answer : Except Exn (Response Resource)) (crowded : Bool) :
    ProtocolHandler Resource → Prop
  /-- An unknown frame, or settings that are all unknown. -/
  | ignored (unknown : (frame.payload = .unread .invalid ∧ taken.inHeader = false) ∨
      frame.payload = .settings none) :
      Handled taken frame answer crowded (taken.send pingAnswer).again
  /-- A frame of the connection. -/
  | control (controlled : Controlled) (valid : frame.IsValid taken.ctx.settings)
      (defined : frame.isDefined) (connection_frame : frame.streamId = 0)
      (done : taken.ctx.settings.handleControlFrame frame taken.answers = .ok controlled)
      (accepted : controlled.error = .noError) :
      Handled taken frame answer crowded { taken with
        ctx := { taken.ctx with settings := controlled.settings }
        answers := controlled.answers
        streams := addFlowControl taken.streams controlled.addFlowControl }.again
  /-- A frame of a stream. -/
  | stream (admitted responded : ProtocolHandler Resource) (stream next : Stream) (ctx : Context)
      (updates : List Frame) (valid : frame.IsValid taken.ctx.settings)
      (defined : frame.isDefined) (stream_frame : frame.streamId ≠ 0)
      (admit_eq : { taken with
        inHeader := (frame.kind = Kind.headers ∨ frame.kind = Kind.continuation) ∧
          ¬ frame.hasFlag endHeadersFlag }.admission frame = some (admitted, stream))
      (received_eq : stream.receivedFrame admitted.ctx frame = (updates, .ok ⟨next, ctx, .noError⟩))
      (responds : { (admitted.sendAll updates).setStream next with ctx }.respond next stream.state
        answer crowded = .ok responded) :
      Handled taken frame answer crowded responded.again

@[simp]
theorem close_phase (self : ProtocolHandler Resource) : self.close.phase = .closed := rfl

@[simp]
theorem goAway_phase (self : ProtocolHandler Resource) (error : ErrorCode) :
    (self.goAway error).phase = .closed := rfl

@[simp]
theorem raised_phase (self : ProtocolHandler Resource) (exn : Exn) :
    (self.raised exn).phase = .closed := by
  cases exn <;> rfl

/-- A frame that has been read as a whole is checked. -/
theorem dispatch_read {taken : ProtocolHandler Resource} {frame : Frame}
    (whole : frame.payload ≠ .unread .settings) (unread : frame.payload ≠ .unread .invalid)
    (ignored : frame.payload ≠ .settings none) :
    taken.dispatch frame answer crowded =
      if frame.kind = .pushPromise then
        taken.goAway .protocolError
      else if ¬ frame.isDefined then
        taken.goAway .protocolError
      else
        match frame.validate taken.ctx.settings with
        | .error exn => taken.raised exn
        | .ok error =>
            if error ≠ .noError then
              taken.goAway error
            else if frame.kind = .goAway then
              taken.close
            else if frame.streamId = 0 then
              taken.receiveControl frame
            else
              taken.receiveStream frame answer crowded := by
  unfold dispatch
  split
  · next payload => exact absurd payload unread
  · next payload => exact absurd payload whole
  · next payload => exact absurd payload ignored
  · rfl

/-- The checks of the loop that come before the kinds of handling. -/
theorem dispatch_checked {taken : ProtocolHandler Resource} {frame : Frame}
    (going_on : (taken.dispatch frame answer crowded).phase ≠ .closed)
    (unread : frame.payload ≠ .unread .invalid) (ignored : frame.payload ≠ .settings none) :
    frame.isDefined ∧ frame.IsValid taken.ctx.settings ∧
      taken.dispatch frame answer crowded =
        if frame.streamId = 0 then taken.receiveControl frame
        else taken.receiveStream frame answer crowded := by
  cases whole : decide (frame.payload = .unread .settings) with
  | true =>
      rw [dispatch, of_decide_eq_true whole] at going_on
      exact absurd rfl going_on
  | false =>
      rw [dispatch_read (of_decide_eq_false whole) unread ignored] at going_on ⊢
      by_cases push : frame.kind = .pushPromise
      · exact absurd (by rw [if_pos push]; rfl) going_on
      by_cases defined : frame.isDefined = true
      · rw [if_neg push, if_neg (not_not.mpr defined)] at going_on ⊢
        rw [Frame.IsValid]
        cases checked : frame.validate taken.ctx.settings with
        | error exn => exact absurd (by rw [checked, raised_phase]) going_on
        | ok error =>
            rw [checked] at going_on
            by_cases valid : error = .noError
            · by_cases leaving : frame.kind = .goAway
              · exact absurd (by simp [valid, leaving]) going_on
              · subst valid
                exact ⟨defined, rfl, by simp [leaving]⟩
            · exact absurd (by simp [valid]) going_on
      · exact absurd (by rw [if_neg push, if_pos defined]; rfl) going_on

/-- What follows `Received_Frame`, when the handler goes on. -/
theorem received_going_on {self : ProtocolHandler Resource} {prevState : StateKind}
    {result : Except Exn Stream.Received}
    (going_on : (self.received prevState answer crowded result).phase ≠ .closed) :
    ∃ next ctx responded, result = .ok ⟨next, ctx, .noError⟩ ∧
      { self.setStream next with ctx }.respond next prevState answer crowded = .ok responded ∧
      self.received prevState answer crowded result = responded.again := by
  cases result with
  | error exn => exact absurd (raised_phase self exn) going_on
  | ok received =>
      obtain ⟨next, ctx, error⟩ := received
      by_cases flow : error = .flowControlError
      · subst flow
        exact absurd rfl going_on
      by_cases accepted : error = .noError
      · subst accepted
        refine ⟨next, ctx, ?_⟩
        simp only [received, reduceCtorEq, if_false, ne_eq, not_true_eq_false] at going_on ⊢
        cases responds : { self.setStream next with ctx }.respond next prevState answer crowded with
        | error exn => exact absurd (by rw [responds]; exact raised_phase _ exn) going_on
        | ok responded => exact ⟨responded, trivial, rfl, rfl⟩
      · exact absurd (by simp [received, flow, accepted]) going_on

/-- Handling a frame, when the handler goes on. -/
theorem handled_of_dispatch {taken : ProtocolHandler Resource} {frame : Frame}
    (going_on : (taken.dispatch frame answer crowded).phase ≠ .closed) :
    Handled taken frame answer crowded (taken.dispatch frame answer crowded) := by
  by_cases unread : frame.payload = .unread .invalid
  · unfold dispatch at going_on ⊢
    rw [unread] at going_on ⊢
    simp only at going_on ⊢
    split at going_on
    · exact absurd rfl going_on
    · next between =>
        rw [if_neg between]
        exact .ignored (.inl ⟨unread, Bool.eq_false_iff.mpr between⟩)
  by_cases ignored : frame.payload = .settings none
  · unfold dispatch
    rw [ignored]
    exact .ignored (.inr ignored)
  obtain ⟨defined, valid, same⟩ := dispatch_checked going_on unread ignored
  rw [same] at going_on ⊢
  split at going_on
  · next connection_frame =>
      rw [if_pos connection_frame]
      unfold receiveControl at going_on ⊢
      cases done : taken.ctx.settings.handleControlFrame frame taken.answers with
      | error exn => exact absurd (by rw [done, raised_phase]) going_on
      | ok controlled =>
          rw [done] at going_on
          by_cases accepted : controlled.error = .noError
          · simp only [accepted, ne_eq, not_true_eq_false, if_false]
            exact .control controlled valid defined connection_frame done accepted
          · exact absurd (by simp [accepted]) going_on
  · next stream_frame =>
      rw [if_neg stream_frame]
      unfold receiveStream at going_on ⊢
      simp only at going_on ⊢
      split at going_on
      · exact absurd rfl going_on
      · next admitted stream admit_eq =>
          obtain ⟨next, ctx, responded, received_eq, responds, result⟩ := received_going_on going_on
          rw [result]
          exact .stream admitted responded stream next ctx
            (stream.receivedFrame admitted.ctx frame).1 valid defined stream_frame admit_eq
            (Prod.ext rfl received_eq) responds

/-- The stream of a frame was there, or it has been created. -/
theorem admission_eq_some {self admitted : ProtocolHandler Resource} {frame : Frame} {stream : Stream}
    (admits : self.admission frame = some (admitted, stream)) :
    (self.streams frame.streamId = some stream ∧ admitted = self) ∨
      (self.streams frame.streamId = none ∧ self.streamOpened < self.maxStream ∧
        (frame.kind ≠ .priority → self.lastSid ≤ frame.streamId) ∧
        stream = Stream.create frame.streamId self.ctx.settings.initialWindowSize ∧
        admitted = { self.setStream stream with
          lastSid := if frame.kind ≠ .priority then frame.streamId else self.lastSid
          streamOpened := self.streamOpened + 1
          trace := .opened frame.streamId :: self.trace }) := by
  unfold admission at admits
  split at admits
  · next current =>
      cases admits
      exact .inl ⟨current, rfl⟩
  · next absent =>
      split at admits
      · cases admits
      · next few =>
          rw [not_or, not_and] at few
          cases admits
          exact .inr ⟨absent, not_le.mp few.2, fun other => not_lt.mp (few.1 other), rfl, rfl⟩

/-- What a frame of a stream leaves, with what handling a request has changed. -/
theorem stream_result {admitted responded : ProtocolHandler Resource} {next : Stream}
    {ctx : Context} {updates : List Frame} {prevState : StateKind}
    (responds : { (admitted.sendAll updates).setStream next with ctx }.respond next prevState
      answer crowded = .ok responded) :
    ∃ keepAlive uploadState willClose messages,
      responded.again = { admitted with
        phase := .head
        ctx
        streams := Function.update admitted.streams next.id
          (some { next with keepAlive, uploadState })
        willClose
        deferredMessages := admitted.deferredMessages ++ messages
        answers := admitted.answers ++ admitted.h2cAnswer
        h2cAnswer := []
        trace := (updates.map Entry.sent).reverse ++ admitted.trace } ∧
      messages.length ≤ 1 ∧
      ∀ message ∈ messages, message.streamId = next.id ∧ message.hSent = false := by
  obtain ⟨keepAlive, uploadState, willClose, messages, rfl, few, fresh⟩ :=
    (respond_eq_ok (by simp [setStream, sendAll]) responds).state_eq
  refine ⟨keepAlive, uploadState, willClose, messages, ?_, few, fresh⟩
  simp only [again, setStream, sendAll, Function.update_idem]

/-! ## Steps -/

private theorem readPreface_eq_ok {before after : ProtocolHandler Resource}
    (read : before.readPreface = .ok after) (going_on : after.phase ≠ .closed) :
    ∃ input, before.input = clientConnectionPreface ++ input ∧ after = { before with input } := by
  unfold readPreface at read
  simp only at read
  split at read
  · cases read
  split at read
  · next same =>
      cases read
      have parts := List.take_append_drop clientConnectionPreface.length before.input
      rw [same] at parts
      exact ⟨_, parts.symm, rfl⟩
  · cases read
    exact absurd rfl going_on

private theorem firstSettings_eq_ok {before after : ProtocolHandler Resource}
    (read : before.firstSettings = .ok after) (going_on : after.phase ≠ .closed) :
    ∃ frame rest values settings, Frame.read before.ctx.settings before.input = .ok (frame, rest) ∧
      frame.payload = .settings (some values) ∧ before.ctx.settings.set values = .ok settings ∧
      after = (before.take frame rest).begin settings := by
  unfold firstSettings at read
  split at read
  · cases read
  · cases read
    exact absurd (raised_phase _ _) going_on
  · next frame rest taken =>
      simp only at read
      split at read
      · next values payload =>
          split at read
          · next settings recorded =>
              cases read
              exact ⟨frame, rest, values, settings, taken, payload, recorded, rfl⟩
          · cases read
            exact absurd (raised_phase _ _) going_on
      · cases read
        exact absurd (raised_phase _ _) going_on
      · cases read
        exact absurd (raised_phase _ _) going_on

theorem connect_eq (self : ProtocolHandler Resource) (checkPreface : Bool) :
    self.connect checkPreface =
      (if checkPreface then self.readPreface else .ok self) >>= fun next =>
        if next.phase = .closed then .ok next else next.firstSettings := by
  cases checkPreface <;> rfl

section Steps

variable [StreamType Resource]

/-- What an event leaves when the handler goes on. -/
inductive Step (before : ProtocolHandler Resource) : Event Resource → ProtocolHandler Resource → Prop
  /-- The first settings have been recorded and those of the server sent. -/
  | connected {checkPreface : Bool} (frame : Frame) (values : SettingsSet) (settings : Connection)
      (octets input : Octets) (phase : before.phase = .start)
      (opened : before.input = (if checkPreface then clientConnectionPreface else []) ++ octets)
      (read : Frame.read before.ctx.settings octets = .ok (frame, input))
      (payload : frame.payload = .settings (some values))
      (recorded : before.ctx.settings.set values = .ok settings) :
      Step before (.connect checkPreface) { before with
        phase := .head
        ctx := { before.ctx with settings }
        maxStream := settings.maxConcurrentStreams
        input
        trace := .sent (.createSettings (toSet before.ctx.config) false) :: .received frame ::
          before.trace }
  /-- The settings of the upgrade have been recorded, and its answer put in frames. -/
  | upgraded {values : SettingsSet} (settings : Connection) (response : Response Resource)
      (frames : List Frame) (message : Message Resource) (tabEnc : Hpack.DynamicTable)
      (input : Octets) (phase : before.phase = .start)
      (opened : before.input = clientConnectionPreface ++ input)
      (recorded : before.ctx.settings.set values = .ok settings)
      (framed : (response.toMessage 1).toFrames { before.ctx with settings }
        (.create 1 settings.initialWindowSize) = .ok (frames, message, tabEnc)) :
      Step before (.upgrade values (.ok response)) { before with
        phase := .head
        ctx := { before.ctx with settings, tabEnc }
        streams := Function.update before.streams 1 (some
          { Stream.create 1 settings.initialWindowSize with keepAlive := response.keepAlive })
        h2cAnswer := frames
        maxStream := settings.maxConcurrentStreams
        streamOpened := before.streamOpened + 1
        input
        trace := .framed frames :: .opened 1 ::
          .sent (.createSettings (toSet before.ctx.config) false) :: before.trace }
  | arrived (octets : Octets) :
      Step before (.arrive octets) { before with input := before.input ++ octets }
  /-- There is no deferred message, or its windows are closed. -/
  | waited (phase : before.phase = .head) : Step before .turn { before with phase := .sending }
  /-- A deferred message has been put in frames. -/
  | framed (message rest : Message Resource) (others : List (Message Resource)) (stream : Stream)
      (frames : List Frame) (tabEnc : Hpack.DynamicTable) (phase : before.phase = .head)
      (deferred : before.deferredMessages = message :: others)
      (current : before.streams message.streamId = some stream)
      (allowed : before.CanFrame message stream)
      (framed : message.toFrames before.ctx stream = .ok (frames, rest, tabEnc))
      (counted : rest.moreFrames = false → 1 ≤ before.streamOpened) :
      Step before .turn { before with
        phase := .sending
        ctx := { before.ctx with tabEnc }
        deferredMessages := if rest.moreFrames then rest :: others else others
        answers := before.answers ++ frames
        willClose := if rest.moreFrames then before.willClose
          else before.willClose || !stream.keepAlive
        streamOpened := if rest.moreFrames then before.streamOpened else before.streamOpened - 1
        trace := .framed frames :: before.trace }
  /-- A frame of the connection has been sent. -/
  | wroteControl (frame : Frame) (answers : List Frame) (phase : before.phase = .sending)
      (quiet : before.input = []) (waiting : before.answers = frame :: answers)
      (connection_frame : frame.streamId = 0) :
      Step before .write { before.send frame with answers }
  /-- A frame of a stream has been sent. -/
  | wroteStream (frame : Frame) (answers : List Frame) (stream next : Stream)
      (phase : before.phase = .sending) (quiet : before.input = [])
      (waiting : before.answers = frame :: answers) (stream_frame : frame.streamId ≠ 0)
      (current : before.streams frame.streamId = some stream) (allowed : before.CanSend frame stream)
      (sent : stream.sendFrame frame = .ok next) :
      Step before .write { (before.send frame) with
        streams := if frame.kind = .goAway then
            Function.update (Function.update before.streams next.id (some next)) frame.streamId none
          else Function.update before.streams next.id (some next)
        ctx := { before.ctx with settings := charged before.ctx.settings frame }
        answers }
  /-- A frame has been received. -/
  | received {answer : Except Exn (Response Resource)} {crowded : Bool} (frame : Frame)
      (rest : Octets) (after : ProtocolHandler Resource) (phase : before.phase = .sending)
      (read : Frame.read before.ctx.settings before.input = .ok (frame, rest))
      (handled : Handled (before.take frame rest) frame answer crowded after) :
      Step before (.receive answer crowded) after
  | parked (phase : before.phase = .sending) (idle : before.Idle) (quiet : before.input = []) :
      Step before .leave { before with phase := .parked }
  | resumed (phase : before.phase = .parked) : Step before .resume before.resume

theorem answerUpgrade_eq_ok {before after : ProtocolHandler Resource}
    {answer : Except Exn (Response Resource)} (answered : before.answerUpgrade answer = .ok after) :
    ∃ response frames message tabEnc, answer = .ok response ∧
      (response.toMessage 1).toFrames before.ctx
        (.create 1 before.ctx.settings.initialWindowSize) = .ok (frames, message, tabEnc) ∧
      after = { before with
        ctx := { before.ctx with tabEnc }
        streams := Function.update before.streams 1 (some
          { Stream.create 1 before.ctx.settings.initialWindowSize with
            keepAlive := response.keepAlive })
        streamOpened := before.streamOpened + 1
        h2cAnswer := frames
        trace := .framed frames :: .opened 1 :: before.trace } := by
  obtain ⟨response, given, answered⟩ := bind_eq_ok_iff.mp answered
  obtain ⟨⟨frames, message, tabEnc⟩, framed, answered⟩ := bind_eq_ok_iff.mp answered
  cases answered
  exact ⟨response, frames, message, tabEnc, given, framed, rfl⟩

private theorem step_connect {before after : ProtocolHandler Resource} {checkPreface : Bool}
    (phase : before.phase = .start) (connected : before.connect checkPreface = .ok after)
    (going_on : after.phase ≠ .closed) : Step before (.connect checkPreface) after := by
  have preface : ∀ next : ProtocolHandler Resource,
      (if checkPreface then before.readPreface else .ok before) = .ok next →
      next.phase ≠ .closed → ∃ input,
        before.input = (if checkPreface then clientConnectionPreface else []) ++ input ∧
          next = { before with input } := by
    intro next read open_
    split at read
    · next check =>
        rw [if_pos check]
        exact readPreface_eq_ok read open_
    · next check =>
        cases read
        rw [if_neg check]
        exact ⟨_, rfl, rfl⟩
  rw [connect_eq] at connected
  obtain ⟨next, read, connected⟩ := bind_eq_ok_iff.mp connected
  split at connected
  · next closed =>
      cases connected
      exact absurd closed going_on
  · next open_ =>
      obtain ⟨input, opened, rfl⟩ := preface next read open_
      obtain ⟨frame, rest, values, settings, taken, payload, recorded, rfl⟩ :=
        firstSettings_eq_ok connected going_on
      exact .connected frame values settings input rest phase opened taken payload recorded

private theorem step_upgrade {before after : ProtocolHandler Resource} {values : SettingsSet}
    {answer : Except Exn (Response Resource)}
    (phase : before.phase = .start) (upgraded : before.upgrade values answer = .ok after)
    (going_on : after.phase ≠ .closed) : Step before (.upgrade values answer) after := by
  obtain ⟨next, read, upgraded⟩ := bind_eq_ok_iff.mp upgraded
  split at upgraded
  · next closed =>
      cases upgraded
      exact absurd closed going_on
  · next open_ =>
      obtain ⟨input, opened, rfl⟩ := readPreface_eq_ok read open_
      simp only at upgraded
      split at upgraded
      · cases upgraded
        exact absurd (raised_phase _ _) going_on
      · next settings recorded =>
          cases upgraded
          cases answered : ProtocolHandler.answerUpgrade
              (({ before with input } : ProtocolHandler Resource).begin settings) answer with
          | error exn => exact absurd (by rw [answered]; exact raised_phase _ _) going_on
          | ok next =>
              obtain ⟨response, frames, message, tabEnc, rfl, framed, rfl⟩ :=
                answerUpgrade_eq_ok answered
              exact .upgraded settings response frames message tabEnc input phase opened recorded
                framed

private theorem step_turn {before : ProtocolHandler Resource} (phase : before.phase = .head)
    (going_on : before.turn.phase ≠ .closed) : Step before .turn before.turn := by
  unfold turn at going_on ⊢
  simp only at going_on ⊢
  split at going_on
  · exact .waited phase
  · next message others deferred =>
      split at going_on
      · exact absurd (raised_phase _ _) going_on
      · next stream current =>
          split at going_on
          · next allowed =>
              rw [if_pos allowed]
              cases done : ProtocolHandler.frameMessage
                  ({ before with phase := .sending } : ProtocolHandler Resource) message others
                  stream with
              | error exn => exact absurd (by rw [done]; exact raised_phase _ _) going_on
              | ok next =>
                  rw [outcome]
                  obtain ⟨⟨frames, rest, tabEnc⟩, framed, done⟩ := bind_eq_ok_iff.mp done
                  have step (counted : rest.moreFrames = false → 1 ≤ before.streamOpened) :
                      Step before .turn _ :=
                    Step.framed message rest others stream frames tabEnc phase deferred current
                      allowed framed counted
                  simp only at done
                  split at done
                  · next more =>
                      cases done
                      simpa only [more, if_true] using step (by simp [more])
                  · next complete =>
                      obtain ⟨opened, counted, done⟩ := bind_eq_ok_iff.mp done
                      cases done
                      obtain ⟨enough, rfl⟩ := naturalSub_eq_ok counted
                      simpa only [complete, if_false, Bool.false_eq_true] using step fun _ => enough
          · next refused =>
              rw [if_neg refused]
              exact .waited phase

private theorem step_write {before after : ProtocolHandler Resource}
    (phase : before.phase = .sending) (written : before.write = .ok after)
    (going_on : after.phase ≠ .closed) : Step before .write after := by
  unfold write at written
  split at written
  · cases written
  · next frame answers waiting =>
      split at written
      · cases written
      · next quiet =>
          rw [not_not] at quiet
          split at written
          · next connection_frame =>
              split at written
              · cases written
                exact absurd (raised_phase _ _) going_on
              · cases written
                exact .wroteControl frame answers phase quiet waiting connection_frame
          · next stream_frame =>
              split at written
              · cases written
                exact absurd (raised_phase _ _) going_on
              · next stream current =>
                  split at written
                  · next allowed =>
                      split at written
                      · cases written
                        exact absurd (raised_phase _ _) going_on
                      · next next sent =>
                          have step := Step.wroteStream frame answers stream next phase quiet
                            waiting stream_frame current allowed sent
                          simp only at written
                          split at written
                          · next leaving =>
                              cases written
                              simp only [leaving, if_true] at step
                              exact step
                          · next staying =>
                              cases written
                              simp only [staying, if_false] at step
                              exact step
                  · cases written

/-- What an event leaves when the handler goes on. -/
theorem step_of_next {before after : ProtocolHandler Resource} {event : Event Resource}
    (stepped : before.next event = .ok after) (going_on : after.phase ≠ .closed) :
    Step before event after := by
  unfold next at stepped
  split at stepped
  · next phase => exact step_connect phase stepped going_on
  · next phase => exact step_upgrade phase stepped going_on
  · cases stepped
    exact .arrived _
  · next phase =>
      cases stepped
      exact step_turn phase going_on
  · next phase => exact step_write phase stepped going_on
  · next phase =>
      split at stepped
      · cases stepped
      · unfold receive at stepped
        split at stepped
        · cases stepped
        · cases stepped
          exact absurd (raised_phase _ _) going_on
        · next frame rest read =>
            cases stepped
            exact .received frame rest _ phase read (handled_of_dispatch going_on)
  · next phase =>
      unfold leave at stepped
      split at stepped
      · next idle =>
          split at stepped
          · cases stepped
            exact absurd rfl going_on
          · split at stepped
            · next quiet =>
                cases stepped
                exact .parked phase idle quiet
            · cases stepped
      · cases stepped
  · next phase =>
      cases stepped
      exact .resumed phase
  all_goals first
    | cases stepped; exact absurd rfl going_on
    | cases stepped

/-- A frame is received in the loop only, unless nothing is left to be done. -/
theorem receive_of_next {before after : ProtocolHandler Resource}
    {answer : Except Exn (Response Resource)} {crowded : Bool}
    (stepped : before.next (.receive answer crowded) = .ok after) :
    before.phase = .sending ∧ before.receive answer crowded = .ok after := by
  unfold next at stepped
  cases phase : before.phase <;> rw [phase] at stepped <;> simp only at stepped
  case sending =>
    split at stepped
    · cases stepped
    · exact ⟨rfl, stepped⟩
  all_goals cases stepped

/-- The frame that is read is handled. -/
theorem dispatch_of_next {before after : ProtocolHandler Resource} {frame : Frame} {rest : Octets}
    {answer : Except Exn (Response Resource)} {crowded : Bool}
    (read : Frame.read before.ctx.settings before.input = .ok (frame, rest))
    (stepped : before.next (.receive answer crowded) = .ok after) :
    after = (before.take frame rest).dispatch frame answer crowded := by
  have received := (receive_of_next stepped).2
  rw [receive, read] at received
  cases received
  rfl

/-- A handler that has been left stays so. -/
theorem going_on_before {before after : ProtocolHandler Resource} {event : Event Resource}
    (stepped : before.next event = .ok after) (going_on : after.phase ≠ .closed) :
    before.phase ≠ .closed := by
  intro closed
  unfold next at stepped
  rw [closed] at stepped
  cases event <;> cases stepped
  exact going_on rfl

end Steps

end ProtocolHandler

end Http2
end AdaWebServer

import AdaWebServer.Http2.HandlerInvariant
import AdaWebServer.Http2.Wire

/-!
# Send windows

What the protocol handler sends within the windows that the peer has granted: no data frame passes
the window of its stream or that of the connection, and the window that `To_Frames` is called with
is a `Natural` unless a message without body waits for a stream whose window is negative.
-/

namespace AdaWebServer
namespace Http2
namespace ProtocolHandler

open Resources Execution

variable {Resource : Type}

/-- The event has written the frame to the socket. -/
def Writes (before after : ProtocolHandler Resource) (frame : Frame) : Prop :=
  ∃ entries, after.trace = entries ++ before.trace ∧ .sent frame ∈ entries

/-- What an event has written has the property of what it adds to the trace. -/
theorem Adds.writes {property : Entry → Prop} {before after : ProtocolHandler Resource}
    (adds : Adds property before after) {frame : Frame} (writes : Writes before after frame) :
    property (.sent frame) := by
  obtain ⟨entries, same, holds⟩ := adds
  obtain ⟨others, other_same, member⟩ := writes
  rw [same, List.append_cancel_right_eq] at other_same
  exact holds _ (other_same ▸ member)

theorem Incidental.kind_ne_data {frame : Frame} (incidental : Incidental (.sent frame)) :
    frame.kind ≠ .data := by
  cases incidental with
  | notice _ kind => rcases kind with kind | kind | kind <;> rw [kind] <;> decide
  | pinged => decide
  | settings config => exact nofun

/-! ## Calls of `To_Frames` -/

section Calls

variable [StreamType Resource]

/-- A function with the profile of `To_Frames`. -/
abbrev Framer (Resource : Type) : Type :=
  Message Resource → Context → Stream → Except Exn
    (List Frame × Message Resource × Hpack.DynamicTable)

variable (toFrames : Framer Resource) (self : ProtocolHandler Resource)

/-- `frameMessage` with another function in place of `To_Frames`. -/
def frameMessageBy (message : Message Resource) (deferredMessages : List (Message Resource))
    (stream : Stream) : Except Exn (ProtocolHandler Resource) := do
  let (frames, message, tabEnc) ← toFrames message self.ctx stream
  let self := { self with
    ctx := { self.ctx with tabEnc }
    answers := self.answers ++ frames
    trace := .framed frames :: self.trace }
  if message.moreFrames then
    return { self with deferredMessages := message :: deferredMessages }
  else do
    let streamOpened ← naturalSub self.streamOpened 1
    return { self with
      deferredMessages
      streamOpened
      willClose := self.willClose || !stream.keepAlive }

/-- `turn` with another function in place of `To_Frames`. -/
def turnBy : ProtocolHandler Resource :=
  let self := { self with phase := .sending }
  match self.deferredMessages with
  | [] => self
  | message :: deferredMessages =>
      match self.streams message.streamId with
      | none => self.raised .constraintError
      | some stream =>
          if self.CanFrame message stream then
            self.outcome (self.frameMessageBy toFrames message deferredMessages stream)
          else
            self

/-- `answerUpgrade` with another function in place of `To_Frames`. -/
def answerUpgradeBy (answer : Except Exn (Response Resource)) :
    Except Exn (ProtocolHandler Resource) := do
  let stream := Stream.create 1 self.ctx.settings.initialWindowSize
  let response ← answer
  let (frames, _, tabEnc) ← toFrames (response.toMessage 1) self.ctx stream
  return { self.setStream { stream with keepAlive := response.keepAlive } with
    ctx := { self.ctx with tabEnc }
    streamOpened := self.streamOpened + 1
    h2cAnswer := frames
    trace := .framed frames :: .opened 1 :: self.trace }

/-- `upgrade` with another function in place of `To_Frames`. -/
def upgradeBy (values : SettingsSet) (answer : Except Exn (Response Resource)) :
    Except Unit (ProtocolHandler Resource) := do
  let self ← self.readPreface
  if self.phase = .closed then
    return self
  else
    match self.ctx.settings.set values with
    | .error exn => return self.raised exn
    | .ok settings =>
        let self := self.begin settings
        return self.outcome (self.answerUpgradeBy toFrames answer)

/-- What an event leads to with another function in place of `To_Frames`. -/
def nextBy (event : Event Resource) : Except Unit (ProtocolHandler Resource) :=
  match event, self.phase with
  | .upgrade values answer, .start => self.upgradeBy toFrames values answer
  | .turn, .head => .ok (self.turnBy toFrames)
  | _, _ => self.next event

/-- The event calls `To_Frames` with the arguments: what it leads to depends on what the call
gives. -/
def Calls (event : Event Resource) (message : Message Resource) (ctx : Context) (stream : Stream) :
    Prop :=
  ∃ toFrames : Framer Resource,
    (∀ other context sender, toFrames other context sender ≠ other.toFrames context sender →
      other = message ∧ context = ctx ∧ sender = stream) ∧
    self.nextBy toFrames event ≠ self.next event

end Calls

/-- The message that is put in frames has a body, or the window of its stream is not negative. -/
def Framable (self : ProtocolHandler Resource) : Event Resource → Prop
  | .turn => ∀ message ∈ self.deferredMessages.head?, ∀ stream ∈ self.streams message.streamId,
      message.hasBody ∨ 0 ≤ stream.flowSendWindow
  | _ => True

section Runs

variable {config : Config} {stack : Nat} {errorBody : Text}
  {events : List (Event Resource)} {before after : ProtocolHandler Resource}
  {event : Event Resource}

section Calls

variable [StreamType Resource] {message : Message Resource} {ctx : Context} {stream : Stream}

omit [StreamType Resource] in
theorem readPreface_ctx {opened : ProtocolHandler Resource}
    (read : before.readPreface = .ok opened) :
    opened.ctx = before.ctx := by
  unfold readPreface at read
  split_ifs at read
  dsimp only at read
  split_ifs at read
  · cases read
    rfl
  · cases read
    rfl

/-- What an event that calls `To_Frames` does it for: the first deferred message, if it can be put
in frames, or the answer to an upgrade. -/
theorem Calls.arguments (calls : before.Calls event message ctx stream) :
    (event = .turn ∧ message ∈ before.deferredMessages.head? ∧
      before.streams message.streamId = some stream ∧ ctx = before.ctx ∧
      before.CanFrame message stream) ∨
    ∃ values answer settings, event = .upgrade values answer ∧
      before.ctx.settings.set values = .ok settings ∧ ctx.settings = settings ∧
      stream = .create 1 settings.initialWindowSize := by
  obtain ⟨toFrames, other, differs⟩ := calls
  cases event with
  | turn =>
      refine .inl ⟨rfl, ?_⟩
      by_contra elsewhere
      refine differs ?_
      have turn_eq : before.turnBy toFrames = before.turn := by
        rw [turnBy, turn]
        cases deferred : before.deferredMessages with
        | nil => rfl
        | cons first later =>
            dsimp only
            cases current : before.streams first.streamId with
            | none => rfl
            | some sender =>
                dsimp only
                split_ifs with allowed
                · have same : toFrames first before.ctx sender =
                    first.toFrames before.ctx sender := by
                    by_contra changed
                    obtain ⟨rfl, rfl, rfl⟩ := other _ _ _ changed
                    exact elsewhere ⟨by rw [deferred]; rfl, current, rfl, allowed⟩
                  rw [frameMessageBy, frameMessage, same]
                · rfl
      cases phase : before.phase <;> simp only [nextBy, next, phase, turn_eq]
  | upgrade values answer =>
      refine .inr ?_
      by_contra elsewhere
      refine differs ?_
      have upgrade_eq : before.upgradeBy toFrames values answer = before.upgrade values answer := by
        rw [upgradeBy, upgrade]
        cases preface : before.readPreface with
        | error failure => rfl
        | ok opened =>
            rw [ok_bind, ok_bind]
            split_ifs
            · rfl
            · cases recorded : opened.ctx.settings.set values with
              | error exn => rfl
              | ok settings =>
                  dsimp only
                  cases answer with
                  | error exn => rfl
                  | ok response =>
                      have same : toFrames (response.toMessage 1) (opened.begin settings).ctx
                          (.create 1 (opened.begin settings).ctx.settings.initialWindowSize) =
                          (response.toMessage 1).toFrames (opened.begin settings).ctx
                          (.create 1 (opened.begin settings).ctx.settings.initialWindowSize) := by
                        by_contra changed
                        obtain ⟨-, ctx_eq, stream_eq⟩ := other _ _ _ changed
                        refine elsewhere ⟨values, _, settings, rfl, ?_, by rw [← ctx_eq]; rfl,
                          stream_eq.symm⟩
                        rw [← recorded, readPreface_ctx preface]
                      rw [answerUpgradeBy, answerUpgrade, ok_bind, ok_bind, same]
      cases phase : before.phase <;> simp only [nextBy, next, phase, upgrade_eq]
  | _ => exact absurd rfl differs

/-- A message that can be put in frames is. -/
theorem calls_of_canFrame {later : List (Message Resource)} (phase : before.phase = .head)
    (deferred : before.deferredMessages = message :: later)
    (current : before.streams message.streamId = some stream)
    (allowed : before.CanFrame message stream) : before.Calls .turn message before.ctx stream := by
  classical
  let changed : Except Exn (List Frame × Message Resource × Hpack.DynamicTable) :=
    if before.turn.phase = .closed then
      .ok ([], { message with hSent := false, bSent := false }, before.ctx.tabEnc)
    else .error .socketError
  let toFrames : Framer Resource := fun other context sender =>
    if other = message ∧ context = before.ctx ∧ sender = stream then changed
    else other.toFrames context sender
  refine ⟨toFrames, fun other context sender differs => ?_, ?_⟩
  · by_contra elsewhere
    exact differs (if_neg elsewhere)
  · intro same
    have phase_eq : (before.turnBy toFrames).phase = before.turn.phase := by
      simp only [nextBy, next, phase] at same
      exact congrArg ProtocolHandler.phase (Except.ok.inj same)
    have changed_eq : toFrames message before.ctx stream = changed := if_pos ⟨rfl, rfl, rfl⟩
    rw [turnBy] at phase_eq
    simp only [deferred, current] at phase_eq
    rw [if_pos (by exact allowed), frameMessageBy] at phase_eq
    simp only [changed_eq] at phase_eq
    dsimp only [changed] at phase_eq
    by_cases closed : before.turn.phase = .closed
    · rw [if_pos closed, closed] at phase_eq
      simp [Message.moreFrames, outcome, ok_bind] at phase_eq
    · rw [if_neg closed] at phase_eq
      exact closed phase_eq.symm

end Calls

/-- The window that `To_Frames` is called with is a `Natural` exactly when the message can be put in
frames. -/
theorem window_natural_iff [StreamType Resource] (sound : Sound before) {message : Message Resource}
    {ctx : Context} {stream : Stream} (calls : before.Calls event message ctx stream) :
    (0 ≤ min stream.flowSendWindow ctx.settings.flowSendWindow ∧
      min stream.flowSendWindow ctx.settings.flowSendWindow ≤ naturalLast) ↔
      before.Framable event := by
  have nonneg := sound.window_nonneg
  have small := sound.window_le
  obtain ⟨rfl, first, current, rfl, allowed⟩ | ⟨values, answer, settings, rfl,
    recorded, ctx_eq, rfl⟩ :=
    calls.arguments
  · constructor
    · intro natural other among sender found
      obtain rfl := Option.mem_unique first among
      obtain rfl := Option.some.inj (current.symm.trans found)
      exact .inr (by omega)
    · intro framable
      obtain body | window := framable message first stream current
      · obtain ⟨stream_window, -⟩ | bare := allowed
        · omega
        · exact absurd body bare
      · omega
  · have window := (Connection.set_windows recorded).1
    rw [ctx_eq, window]
    exact iff_of_true ⟨le_min (Int.natCast_nonneg _) nonneg, (min_le_right _ _).trans small⟩ trivial

variable [StreamType Resource]

/-- Every data frame is written within both windows. -/
theorem data_within_windows (sound : Sound before) (stepped : before.next event = .ok after)
    {frame : Frame} {content : Octets} (writes : Writes before after frame)
    (data : frame.payload = .data content) :
    ∃ stream, before.streams frame.streamId = some stream ∧
      (content.length : Int) ≤ stream.flowSendWindow ∧
      (content.length : Int) ≤ before.ctx.settings.flowSendWindow := by
  have kind : frame.kind = .data := by rw [Frame.kind, data]
  have quiet : ¬ Adds Incidental before after := fun adds => (adds.writes writes).kind_ne_data kind
  by_cases writing : event = .write
  · subst writing
    obtain ⟨-, -, head, answers, waiting, outcome⟩ := written_of_next stepped
    rcases outcome with adds | ⟨allowed, adds⟩
    · exact absurd adds quiet
    · rcases adds.writes writes with same | incidental
      · cases same
        have queued := sound.queued frame (by simp [waiting])
        rcases allowed with connection_frame | ⟨stream, current, allowed⟩
        · exact absurd connection_frame (queued.stream_frame kind)
        · have fits := le_min_iff.mp (allowed kind)
          rw [queued.length kind, Frame.dataOctets, data] at fits
          exact ⟨stream, current, fits.2, fits.1⟩
      · exact absurd kind incidental.kind_ne_data
  · exact absurd (incidental_of_next stepped writing) quiet

/-- In every run, data is sent within both windows; and whenever `To_Frames` is called, the minimum
of the windows of its arguments is a `Natural` exactly when the message has a body or the window of
its stream is not negative. -/
theorem send_windows_of_run
    (run : Run (Computes next) (create config stack errorBody) events before)
    (going_on : before.phase ≠ .closed) (stepped : before.next event = .ok after) :
    (∀ frame content, Writes before after frame → frame.payload = .data content →
      ∃ stream, before.streams frame.streamId = some stream ∧
        (content.length : Int) ≤ stream.flowSendWindow ∧
        (content.length : Int) ≤ before.ctx.settings.flowSendWindow) ∧
    ∀ message ctx stream, before.Calls event message ctx stream →
      ((0 ≤ min stream.flowSendWindow ctx.settings.flowSendWindow ∧
        min stream.flowSendWindow ctx.settings.flowSendWindow ≤ naturalLast) ↔
        before.Framable event) := by
  have unguarded : Run (Guarded (fun _ _ => True) (Computes next)) (create config stack errorBody)
      events before := run.mono fun stepped => ⟨trivial, stepped⟩
  have sound := sound_of_run unguarded going_on
  exact ⟨fun frame content writes data => data_within_windows sound stepped writes data,
    fun message ctx stream calls => window_natural_iff sound calls⟩

end Runs

/-! ## A second message for a stream -/

/-- A request whose content is longer than an upload may be. -/
def oversizeRequest : WireFrame :=
  ⟨1, 0x04, false, 1, [0x83, 0x86, 0x84, 0x0f, 0x0d, 0x07] ++ text "6000000",
    WireFrame.first_lt, by decide⟩

/-- A settings frame that sets `INITIAL_WINDOW_SIZE` to 0. -/
def closingSettings : WireFrame :=
  ⟨4, 0, false, 0, [0, 4, 0, 0, 0, 0], WireFrame.connection_lt, by decide⟩

/-- Trailers, with the end of the stream. -/
def trailers : WireFrame :=
  ⟨1, 0x05, false, 1, [0x00, 0x01, 0x61, 0x01, 0x62], WireFrame.first_lt, by decide⟩

/-- A response with the given body, or without one. -/
def response (status : Text) (body : Option Octets) : Response DiskStream where
  mode := if body.isSome then .message else .header
  ranges := []
  headers := [(text ":status", status)]
  mBody := body.map fun file => ⟨file, 0⟩
  keepAlive := true
  isContinue := false

/-- The request is rejected with a body of ten octets, which are sent; the windows of the streams
are lowered, and the request is ended by trailers. -/
def rejectedUpload : List (Event DiskStream) :=
  [.arrive (WireFrame.emptySettings.octets ++ oversizeRequest.octets), .connect false, .turn,
    .receive (.ok (response (text "413") (some (text "0123456789")))) false, .turn, .write, .write,
    .arrive (closingSettings.octets ++ trailers.octets), .receive (.error .constraintError) false,
    .turn, .receive (.ok (response (text "413") none)) false]

/-- The first deferred message that can be put in frames, by the minimum of its windows. -/
def framable (self : ProtocolHandler DiskStream) : Option Int :=
  self.deferredMessages.head?.bind fun message => (self.streams message.streamId).bind fun stream =>
    if self.CanFrame message stream then
      some (min stream.flowSendWindow self.ctx.settings.flowSendWindow)
    else none

theorem calls_of_framable {before : ProtocolHandler DiskStream} {window : Int}
    (phase : before.phase = .head) (waits : before.framable = some window) :
    ∃ message ctx stream, before.Calls .turn message ctx stream ∧
      min stream.flowSendWindow ctx.settings.flowSendWindow = window := by
  obtain ⟨message, first, waits⟩ := Option.bind_eq_some_iff.mp waits
  obtain ⟨stream, current, waits⟩ := Option.bind_eq_some_iff.mp waits
  obtain ⟨later, deferred⟩ := List.head?_eq_some_iff.mp first
  split_ifs at waits with allowed
  exact ⟨message, before.ctx, stream, calls_of_canFrame phase deferred current allowed,
    Option.some.inj waits⟩

/-- A response with a body is put in frames and sent. -/
theorem send_windows_rejectedUpload :
    (∃ before message ctx stream,
      Run (Computes next) (create .default 65536 []) (rejectedUpload.take 4) before ∧
      before.Calls .turn message ctx stream ∧
      ((0 ≤ min stream.flowSendWindow ctx.settings.flowSendWindow ∧
        min stream.flowSendWindow ctx.settings.flowSendWindow ≤ naturalLast) ↔
        before.Framable .turn)) ∧
    ∃ before after : ProtocolHandler DiskStream,
      Run (Computes next) (create .default 65536 []) (rejectedUpload.take 6) before ∧
      before.next .write = .ok after ∧
      (∀ frame content, Writes before after frame → frame.payload = .data content →
        ∃ stream, before.streams frame.streamId = some stream ∧
          (content.length : Int) ≤ stream.flowSendWindow ∧
          (content.length : Int) ≤ before.ctx.settings.flowSendWindow) := by
  constructor
  · obtain ⟨before, run, phase, waits⟩ : ∃ before : ProtocolHandler DiskStream,
        Run (Guarded (fun _ _ => True) (Computes next)) (create .default 65536 [])
          (rejectedUpload.take 4) before ∧
        (before.phase = .head ∧ before.framable = some 65535) :=
      exists_run_of_follow (by decide +kernel)
    obtain ⟨message, ctx, stream, calls, -⟩ := calls_of_framable phase waits
    have stepped : before.next .turn = .ok before.turn := by simp only [next, phase]
    exact ⟨before, message, ctx, stream, run.of_guarded, calls, (send_windows_of_run run.of_guarded
      (by simp [phase]) stepped).2 message ctx stream calls⟩
  · obtain ⟨before, run, going_on, writes⟩ : ∃ before : ProtocolHandler DiskStream,
        Run (Guarded (fun _ _ => True) (Computes next)) (create .default 65536 [])
          (rejectedUpload.take 6) before ∧
        (before.phase ≠ .closed ∧ (before.next .write).isOk = true) :=
      exists_run_of_follow (by decide +kernel)
    cases stepped : before.next .write with
    | error failure =>
        rw [stepped] at writes
        cases writes
    | ok after =>
        exact ⟨before, after, run.of_guarded, stepped,
          (send_windows_of_run run.of_guarded going_on stepped).1⟩

/-- A second message without body waits for a stream whose window is negative: the handler is left
by `Constraint_Error`. -/
theorem negative_window_framed : ∃ before : ProtocolHandler DiskStream,
    Run (Computes next) (create .default 65536 []) rejectedUpload before ∧ before.phase = .head ∧
      (∃ message ctx stream, before.Calls .turn message ctx stream ∧
        min stream.flowSendWindow ctx.settings.flowSendWindow = -10) ∧
      before.turn.phase = .closed := by
  obtain ⟨before, run, phase, waits, closed⟩ : ∃ before : ProtocolHandler DiskStream,
      Run (Guarded (fun _ _ => True) (Computes next)) (create .default 65536 []) rejectedUpload
        before ∧
      (before.phase = .head ∧ before.framable = some (-10) ∧ before.turn.phase = .closed) :=
    exists_run_of_follow (by decide +kernel)
  exact ⟨before, run.of_guarded, phase, calls_of_framable phase waits, closed⟩

end ProtocolHandler
end Http2
end AdaWebServer

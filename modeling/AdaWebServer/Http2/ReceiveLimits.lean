import AdaWebServer.Http2.SendWindow

/-!
# Limits on what is received

The length of a frame and the number of streams should be limited by what the server has announced.
The record of the settings holds the announced values at first, and the settings of the peer replace
them.
-/

namespace AdaWebServer
namespace Http2
namespace ProtocolHandler

open Resources Execution

variable {Resource : Type}

/-! ## Decisions -/

/-- The frame is the first one of a stream, and its number does not keep it from being opened. -/
def Opens (self : ProtocolHandler Resource) (frame : Frame) : Prop :=
  self.streams frame.streamId = none ∧ (frame.kind = .priority ∨ self.lastSid ≤ frame.streamId)

/-- A stream is opened as long as there are fewer than `maxStream`. -/
theorem admission_isSome_iff {self : ProtocolHandler Resource} {frame : Frame}
    (opens : self.Opens frame) :
    (self.admission frame).isSome ↔ self.streamOpened < self.maxStream := by
  have numbered : ¬(frame.kind ≠ .priority ∧ frame.streamId < self.lastSid) := by
    rintro ⟨other, stale⟩
    exact opens.2.elim other (Nat.not_le.mpr stale)
  unfold admission
  rw [opens.1]
  dsimp only
  by_cases full : self.maxStream ≤ self.streamOpened
  · rw [if_pos (.inr full)]
    exact iff_of_false Bool.false_ne_true (Nat.not_lt.mpr full)
  · rw [if_neg (not_or.mpr ⟨numbered, full⟩)]
    exact iff_of_true rfl (Nat.lt_of_not_le full)

/-- The limits are those that the server has announced. -/
structure OwnLimits (handler : ProtocolHandler Resource) : Prop where
  frame_size : handler.ctx.settings.values .maxFrameSize = handler.ctx.config.maxFrameSize.val
  streams : handler.phase ≠ .start → handler.maxStream = handler.ctx.config.maxConcurrentStreams.val

/-- The value of a setting once a list of settings has been recorded. -/
def valueAfter (self : ProtocolHandler Resource) (values : SettingsSet) (id : SettingsKind) : Nat :=
  (Connection.lastValue id values).getD (self.ctx.settings.values id)

/-- Settings keep both limits at the announced values. -/
def Keeps (self : ProtocolHandler Resource) (values : SettingsSet) : Prop :=
  self.valueAfter values .maxFrameSize = self.ctx.config.maxFrameSize.val ∧
    self.valueAfter values .maxConcurrentStreams = self.ctx.config.maxConcurrentStreams.val

/-- The event leaves the limits at the announced values: the settings that it records, and for the
number of streams those that hold when the loop starts. -/
def KeepsLimits (self : ProtocolHandler Resource) : Event Resource → Prop
  | .connect checkPreface =>
      match Frame.read self.ctx.settings
        (self.input.drop (if checkPreface then clientConnectionPreface.length else 0)) with
      | .error _ => True
      | .ok (frame, _) =>
          match frame.payload with
          | .settings (some values) => self.Keeps values
          | _ => True
  | .upgrade values _ => self.Keeps values
  | .receive _ _ =>
      match Frame.read self.ctx.settings self.input with
      | .error _ => True
      | .ok (frame, _) =>
          match frame.payload with
          | .settings (some values) =>
              self.valueAfter values .maxFrameSize = self.ctx.config.maxFrameSize.val
          | _ => True
  | .resume => self.ctx.settings.values .maxConcurrentStreams =
      self.ctx.config.maxConcurrentStreams.val
  | _ => True

/-! ## Steps -/

section Steps

variable {before after : ProtocolHandler Resource} {frame : Frame}

theorem ownLimits_create {config : Config} {stack : Nat} {errorBody : Text} :
    OwnLimits (create config stack errorBody : ProtocolHandler Resource) where
  frame_size := by
    rw [create, Context.create, Connection.configured_eq]
    rfl
  streams := fun started => absurd rfl started

/-- A step that leaves the limits as they are. -/
private theorem ownLimits_of_same (own : OwnLimits before)
    (phase : after.phase ≠ .start → before.phase ≠ .start)
    (values : after.ctx.settings.values = before.ctx.settings.values)
    (config : after.ctx.config = before.ctx.config) (streams : after.maxStream = before.maxStream) :
    OwnLimits after := by
  refine ⟨?_, fun started => ?_⟩
  · rw [values, config, own.frame_size]
  · rw [streams, config, own.streams (phase started)]

/-- The start of the loop records the settings and the number of streams. -/
private theorem ownLimits_of_recorded {settings : Connection} {values : SettingsSet}
    (recorded : before.ctx.settings.set values = .ok settings)
    (settings_eq : after.ctx.settings = settings) (config : after.ctx.config = before.ctx.config)
    (streams : after.maxStream = settings.maxConcurrentStreams) (phase : after.phase ≠ .start) :
    OwnLimits after ↔ before.Keeps values := by
  have value := Connection.set_values recorded
  constructor
  · rintro ⟨frame_size, streams_eq⟩
    rw [settings_eq, config, value] at frame_size
    have streams_eq := streams_eq phase
    rw [streams, config, Connection.maxConcurrentStreams, value] at streams_eq
    exact ⟨frame_size, streams_eq⟩
  · rintro ⟨frame_size, streams_eq⟩
    refine ⟨?_, fun _ => ?_⟩
    · rw [settings_eq, config, value]
      exact frame_size
    · rw [streams, config, Connection.maxConcurrentStreams, value]
      exact streams_eq

/-- A frame that is handled keeps the size of the frames when it records no other one. -/
private theorem ownLimits_of_handled {answer : Except Exn (Response Resource)} {crowded : Bool}
    {rest : Octets} (own : OwnLimits before) (sound : Sound before)
    (phase : before.phase = .sending)
    (read : Frame.read before.ctx.settings before.input = .ok (frame, rest))
    (handled : Handled (before.take frame rest) frame answer crowded after) :
    OwnLimits after ↔ match frame.payload with
      | .settings (some values) =>
          before.valueAfter values .maxFrameSize = before.ctx.config.maxFrameSize.val
      | _ => True := by
  have started : before.phase ≠ .start := by simp [phase]
  have unchanged : ∀ {next : ProtocolHandler Resource},
      next.ctx.settings.values = before.ctx.settings.values → next.ctx.config = before.ctx.config →
      next.maxStream = before.maxStream →
      (match frame.payload with
        | .settings (some values) => values = []
        | _ => True) →
      (OwnLimits next ↔ match frame.payload with
        | .settings (some values) =>
            before.valueAfter values .maxFrameSize = before.ctx.config.maxFrameSize.val
        | _ => True) := by
    intro next values config streams empty
    refine iff_of_true (ownLimits_of_same own (fun _ => started) values config streams) ?_
    split
    · next values payload =>
        rw [payload] at empty
        simp only at empty
        subst empty
        exact own.frame_size
    · trivial
  cases handled with
  | ignored unknown =>
      refine unchanged rfl rfl rfl ?_
      rcases unknown with ⟨payload, -⟩ | payload <;> simp [payload]
  | control controlled valid defined connection_frame done accepted =>
      cases Connection.controlEffect done with
      | recorded values payload fresh recorded answered change accepted =>
          rw [payload]
          have value := Connection.set_values recorded .maxFrameSize
          constructor
          · rintro ⟨frame_size, -⟩
            exact value.symm.trans frame_size
          · exact fun kept => ⟨value.trans kept, fun _ => own.streams started⟩
      | ponged kind same =>
          subst same
          refine unchanged rfl rfl rfl ?_
          cases payload : frame.payload <;> simp [Frame.kind, payload] at kind ⊢
      | acknowledged kind acknowledges same =>
          subst same
          refine unchanged rfl rfl rfl ?_
          split
          · next values payload =>
              exact Frame.values_of_acknowledgement read valid payload acknowledges
          · trivial
      | credited increment payload _ same | overflowed increment payload _ same =>
          subst same
          exact unchanged rfl rfl rfl (by simp [payload])
      | ignored quiet other same =>
          subst same
          refine unchanged rfl rfl rfl ?_
          cases payload : frame.payload <;> simp [Frame.kind, payload] at other ⊢
  | stream admitted responded stream next ctx updates valid defined stream_frame admits received
      responds =>
      have served : Served (before.take frame rest) frame responded.again :=
        served_of_handled sound.stream_id read valid admits received responds
      have other : match frame.payload with
          | .settings (some values) => values = []
          | _ => True := by
        cases payload : frame.payload with
        | settings values => simp [Frame.IsValid, Frame.validate, payload, stream_frame] at valid
        | _ => trivial
      generalize responded.again = after at served ⊢
      cases served with
      | intro stream next ctx updates opened streamOpened lastSid keepAlive uploadState willClose
          messages admits stream_id received accepts few fresh =>
          exact unchanged accepts.values accepts.config rfl other

variable [StreamType Resource] {event : Event Resource}

theorem ownLimits_iff (own : OwnLimits before) (sound : Sound before)
    (step : Step before event after) : OwnLimits after ↔ before.KeepsLimits event := by
  cases step with
  | connected frame values settings octets input phase opened read payload recorded =>
      rename_i checkPreface
      have rest : before.input.drop (if checkPreface then clientConnectionPreface.length else 0) =
          octets := by
        rw [opened]
        cases checkPreface
        · rfl
        · exact List.drop_left' rfl
      rw [KeepsLimits, rest, read]
      simp only [payload]
      exact ownLimits_of_recorded recorded rfl rfl rfl nofun
  | upgraded settings response frames message tabEnc input phase opened recorded framed =>
      exact ownLimits_of_recorded recorded rfl rfl rfl nofun
  | arrived octets => exact iff_of_true (ownLimits_of_same own id rfl rfl rfl) trivial
  | waited phase =>
      exact iff_of_true (ownLimits_of_same own (fun _ => by simp [phase]) rfl rfl rfl) trivial
  | framed message rest others stream frames tabEnc phase deferred current allowed framed counted =>
      exact iff_of_true (ownLimits_of_same own (fun _ => by simp [phase]) rfl rfl rfl) trivial
  | wroteControl frame answers phase quiet waiting connection_frame =>
      exact iff_of_true (ownLimits_of_same own id rfl rfl rfl) trivial
  | wroteStream frame answers stream next phase quiet waiting stream_frame current allowed sent =>
      refine iff_of_true (ownLimits_of_same own id ?_ rfl rfl) trivial
      simp only [charged]
      split <;> rfl
  | received frame rest after phase read handled =>
      rw [KeepsLimits, read]
      exact ownLimits_of_handled own sound phase read handled
  | parked phase idle quiet =>
      exact iff_of_true (ownLimits_of_same own (fun _ => by simp [phase]) rfl rfl rfl) trivial
  | resumed phase =>
      exact ⟨fun later => later.streams nofun, fun same => ⟨own.frame_size, fun _ => same⟩⟩

end Steps

/-! ## Two runs -/

section Runs

variable [StreamType Resource] {config : Config} {stack : Nat} {errorBody : Text}
  {events others : List (Event Resource)} {left right : ProtocolHandler Resource}

theorem ownLimits_of_run
    (run : Run (Guarded KeepsLimits (Computes next)) (create config stack errorBody) events left)
    (going_on : left.phase ≠ .closed) :
    Sound left ∧ OwnLimits left ∧ left.ctx.config = config := by
  refine invariant_of_run (fun state => Sound state ∧ OwnLimits state ∧ state.ctx.config = config)
    ⟨sound_create, ownLimits_create, rfl⟩ ?_ run going_on
  rintro before after event ⟨sound, own, config_eq⟩ kept step
  exact ⟨sound_of_step sound step, (ownLimits_iff own sound step).mpr kept,
    (config_of_step sound step).trans config_eq⟩

/-- A frame is judged by the settings through the maximal size of frames alone. -/
theorem validate_congr {settings other : Connection}
    (frame_size : settings.maxFrameSize = other.maxFrameSize) (frame : Frame) :
    frame.validate settings = frame.validate other := by
  have header : Frame.validateHeader settings frame.kind frame.length =
      Frame.validateHeader other frame.kind frame.length := by
    rw [Frame.validateHeader, Frame.validateHeader, frame_size]
  unfold Frame.validate
  rw [header]

/-- In any two runs of which every event keeps the limits at the announced values, the same is
decided about every frame, and when as many streams are open about every frame that opens one: what
the announced limits say.  A step keeps the limits exactly when its event does. -/
theorem limits_of_runs
    (left_run : Run (Guarded KeepsLimits (Computes next)) (create config stack errorBody)
      events left)
    (right_run : Run (Guarded KeepsLimits (Computes next)) (create config stack errorBody) others
      right)
    (left_open : left.phase ≠ .closed) (right_open : right.phase ≠ .closed) :
    (∀ frame : Frame, frame.validate left.ctx.settings = frame.validate right.ctx.settings ∧
      frame.validate left.ctx.settings = frame.validate (Connection.configured config)) ∧
      (left.phase ≠ .start → right.phase ≠ .start → left.streamOpened = right.streamOpened →
        ∀ frame : Frame, left.Opens frame → right.Opens frame →
          (left.admission frame).isSome = (right.admission frame).isSome) ∧
      (left.phase ≠ .start → ∀ frame : Frame, left.Opens frame →
        ((left.admission frame).isSome ↔ left.streamOpened < config.maxConcurrentStreams.val)) ∧
      ∀ event after, left.next event = .ok after → after.phase ≠ .closed →
        (OwnLimits after ↔ left.KeepsLimits event) := by
  obtain ⟨left_sound, left_own, left_config⟩ := ownLimits_of_run left_run left_open
  obtain ⟨-, right_own, right_config⟩ := ownLimits_of_run right_run right_open
  have judged : ∀ {state : ProtocolHandler Resource}, OwnLimits state →
      state.ctx.config = config → ∀ frame : Frame,
        frame.validate state.ctx.settings = frame.validate (Connection.configured config) := by
    intro state own config_eq
    refine validate_congr ?_
    rw [Connection.configured_eq, Connection.maxFrameSize, Connection.maxFrameSize, own.frame_size,
      config_eq]
    rfl
  have admitted : ∀ {state : ProtocolHandler Resource}, OwnLimits state →
      state.ctx.config = config → state.phase ≠ .start → ∀ frame : Frame, state.Opens frame →
        ((state.admission frame).isSome ↔
          state.streamOpened < config.maxConcurrentStreams.val) := by
    intro state own config_eq started frame opens
    rw [admission_isSome_iff opens, own.streams started, config_eq]
  refine ⟨fun frame => ⟨?_, judged left_own left_config frame⟩,
    fun left_started right_started same frame left_opens right_opens => ?_,
    admitted left_own left_config, fun event after stepped going_on => ?_⟩
  · rw [judged left_own left_config, judged right_own right_config]
  · rw [Bool.eq_iff_iff, admitted left_own left_config left_started frame left_opens,
      admitted right_own right_config right_started frame right_opens, same]
  · exact ownLimits_iff left_own left_sound (step_of_next stepped going_on)

end Runs

/-! ## Settings that replace the limits -/

/-- A connection starts with settings, and a request is received. -/
def firstRequest (settings : WireFrame) : List (Event DiskStream) :=
  [.arrive (settings.octets ++ oversizeRequest.octets), .connect false, .turn,
    .receive (.ok (response (text "413") none)) false]

/-- A settings frame that sets `MAX_FRAME_SIZE` to 32768 and `MAX_CONCURRENT_STREAMS` to 0. -/
def limitingSettings : WireFrame :=
  ⟨4, 0, false, 0, [0, 5, 0, 0, 0x80, 0, 0, 3, 0, 0, 0, 0], WireFrame.connection_lt, by decide⟩

instance (self : ProtocolHandler Resource) (event : Event Resource) :
    Decidable (self.KeepsLimits event) := by
  unfold KeepsLimits Keeps
  match event with
  | .connect _ | .receive _ _ =>
      dsimp only
      match Frame.read _ _ with
      | .error _ => infer_instance
      | .ok (frame, _) =>
          dsimp only
          match frame.payload with
          | .settings (some _) | .settings none | .unread _ | .data _ | .headers _ | .priority _
          | .rstStream _ | .pushPromise _ | .ping _ | .goAway _ | .windowUpdate _
          | .continuation _ => infer_instance
  | .upgrade _ _ | .arrive _ | .turn | .write | .leave | .resume | .fail => infer_instance

/-- A frame that opens the third stream. -/
def thirdHeaders : Frame := ⟨1, 0x05, 3, .headers [0x82]⟩

/-- A frame with more data than is announced. -/
def largeData : Frame := ⟨16385, 0, 1, .data (List.replicate 16385 0)⟩

instance (self : ProtocolHandler Resource) (frame : Frame) : Decidable (self.Opens frame) :=
  decidable_of_iff ((self.streams frame.streamId).isNone = true ∧
      (frame.kind = .priority ∨ self.lastSid ≤ frame.streamId))
    (and_congr_left' Option.isNone_iff_eq_none)

/-- Settings of the windows change no decision. -/
theorem limits_closingSettings : ∃ left right : ProtocolHandler DiskStream,
    Run (Guarded KeepsLimits (Computes next)) (create .default 65536 [])
      (firstRequest .emptySettings) left ∧
    Run (Guarded KeepsLimits (Computes next)) (create .default 65536 [])
      (firstRequest closingSettings) right ∧
    (∀ frame : Frame, frame.validate left.ctx.settings = frame.validate right.ctx.settings) ∧
    left.Opens thirdHeaders ∧ right.Opens thirdHeaders ∧
    (left.admission thirdHeaders).isSome = (right.admission thirdHeaders).isSome := by
  obtain ⟨left, left_run, left_open, left_started, left_count, left_opens⟩ :
      ∃ state : ProtocolHandler DiskStream,
      Run (Guarded KeepsLimits (Computes next)) (create .default 65536 [])
        (firstRequest .emptySettings) state ∧ (state.phase ≠ .closed ∧ state.phase ≠ .start ∧
          state.streamOpened = 1 ∧ state.Opens thirdHeaders) :=
    exists_run_of_follow (by decide +kernel)
  obtain ⟨right, right_run, right_open, right_started, right_count, right_opens⟩ :
      ∃ state : ProtocolHandler DiskStream,
      Run (Guarded KeepsLimits (Computes next)) (create .default 65536 [])
        (firstRequest closingSettings) state ∧ (state.phase ≠ .closed ∧ state.phase ≠ .start ∧
          state.streamOpened = 1 ∧ state.Opens thirdHeaders) :=
    exists_run_of_follow (by decide +kernel)
  have limits := limits_of_runs left_run right_run left_open right_open
  exact ⟨left, right, left_run, right_run, fun frame => (limits.1 frame).1, left_opens, right_opens,
    limits.2.1 left_started right_started (left_count.trans right_count.symm)
      thirdHeaders left_opens right_opens⟩

/-- The settings of the peer raise the size of the frames that are accepted, and let the first
request be refused. -/
theorem limits_replaced : ∃ left right after : ProtocolHandler DiskStream,
    Run (Computes next) (create .default 65536 []) ((firstRequest .emptySettings).take 2) left ∧
    Run (Computes next) (create .default 65536 []) ((firstRequest limitingSettings).take 2) right ∧
    largeData.validate left.ctx.settings = .ok .frameSizeError ∧
    largeData.validate right.ctx.settings = .ok .noError ∧
    left.streamOpened = right.streamOpened ∧ left.Opens thirdHeaders ∧ right.Opens thirdHeaders ∧
    (left.admission thirdHeaders).isSome = true ∧ (right.admission thirdHeaders).isSome = false ∧
    Run (Computes next) (create .default 65536 []) (firstRequest limitingSettings) after ∧
    after.phase = .closed := by
  obtain ⟨left, left_run, left_size, left_count, left_opens, left_admits⟩ :
      ∃ state : ProtocolHandler DiskStream,
      Run (Guarded (fun _ _ => True) (Computes next)) (create .default 65536 [])
        ((firstRequest .emptySettings).take 2) state ∧
      (state.ctx.settings.values .maxFrameSize = 16384 ∧ state.streamOpened = 0 ∧
        state.Opens thirdHeaders ∧ (state.admission thirdHeaders).isSome = true) :=
    exists_run_of_follow (by decide +kernel)
  obtain ⟨right, right_run, right_size, right_count, right_opens, right_refuses⟩ :
      ∃ state : ProtocolHandler DiskStream,
      Run (Guarded (fun _ _ => True) (Computes next)) (create .default 65536 [])
        ((firstRequest limitingSettings).take 2) state ∧
      (state.ctx.settings.values .maxFrameSize = 32768 ∧ state.streamOpened = 0 ∧
        state.Opens thirdHeaders ∧ (state.admission thirdHeaders).isSome = false) :=
    exists_run_of_follow (by decide +kernel)
  obtain ⟨after, run, closed⟩ : ∃ state : ProtocolHandler DiskStream,
      Run (Guarded (fun _ _ => True) (Computes next)) (create .default 65536 [])
        (firstRequest limitingSettings) state ∧ state.phase = .closed :=
    exists_run_of_follow (by decide +kernel)
  have judged (settings : Connection) : largeData.validate settings =
      Frame.validateHeader settings .data 16385 := rfl
  refine ⟨left, right, after, left_run.of_guarded, right_run.of_guarded, ?_, ?_,
    left_count.trans right_count.symm, left_opens, right_opens, left_admits, right_refuses,
    run.of_guarded, closed⟩
  · rw [judged, Frame.validateHeader, Connection.maxFrameSize, left_size]
    rfl
  · rw [judged, Frame.validateHeader, Connection.maxFrameSize, right_size]
    rfl

end ProtocolHandler
end Http2
end AdaWebServer

import AdaWebServer.Http2.Client
import AdaWebServer.Http2.SendWindow

/-!
# Acknowledgement of settings

Every settings frame should be acknowledged once, and no acknowledgement should be acknowledged.
Both endpoints record the first settings without an answer, and answer an acknowledgement by an
acknowledgement.
-/

namespace AdaWebServer
namespace Http2

open Resources Execution

/-! ## Counting -/

/-- The frame acknowledges settings. -/
def Frame.acknowledges (self : Frame) : Bool := self.kind = .settings ∧ self.hasFlag ackFlag

/-- The frame holds settings that are to be acknowledged. -/
def Frame.isSettings (self : Frame) : Bool := self.kind = .settings ∧ ¬ self.hasFlag ackFlag

namespace Entry

/-- An acknowledgement that has been sent. -/
def acknowledgement : Entry → Bool
  | .sent frame => frame.acknowledges
  | _ => false

/-- Settings that have been received. -/
def settings : Entry → Bool
  | .received frame => frame.isSettings
  | _ => false

end Entry

/-- The acknowledgements that have been sent. -/
def sentAcknowledgements (trace : List Entry) : Nat := trace.countP Entry.acknowledgement

/-- The settings that have been received. -/
def receivedSettings (trace : List Entry) : Nat := trace.countP Entry.settings

section Counts

variable {frame : Frame} {frames : List Frame} {trace : List Entry}

@[simp]
theorem sentAcknowledgements_sent :
    sentAcknowledgements (.sent frame :: trace) =
      sentAcknowledgements trace + if frame.acknowledges then 1 else 0 := List.countP_cons

@[simp]
theorem sentAcknowledgements_received :
    sentAcknowledgements (.received frame :: trace) = sentAcknowledgements trace :=
  List.countP_cons_of_neg Bool.false_ne_true

@[simp]
theorem sentAcknowledgements_opened {id : StreamId} :
    sentAcknowledgements (.opened id :: trace) = sentAcknowledgements trace :=
  List.countP_cons_of_neg Bool.false_ne_true

@[simp]
theorem sentAcknowledgements_framed :
    sentAcknowledgements (.framed frames :: trace) = sentAcknowledgements trace :=
  List.countP_cons_of_neg Bool.false_ne_true

@[simp]
theorem sentAcknowledgements_sentAll :
    sentAcknowledgements ((frames.map Entry.sent).reverse ++ trace) =
      frames.countP Frame.acknowledges + sentAcknowledgements trace := by
  rw [sentAcknowledgements, List.countP_append, List.countP_reverse, List.countP_map]
  rfl

@[simp]
theorem receivedSettings_received :
    receivedSettings (.received frame :: trace) =
      receivedSettings trace + if frame.isSettings then 1 else 0 := List.countP_cons

@[simp]
theorem receivedSettings_sent :
    receivedSettings (.sent frame :: trace) = receivedSettings trace :=
  List.countP_cons_of_neg Bool.false_ne_true

@[simp]
theorem receivedSettings_opened {id : StreamId} :
    receivedSettings (.opened id :: trace) = receivedSettings trace :=
  List.countP_cons_of_neg Bool.false_ne_true

@[simp]
theorem receivedSettings_framed :
    receivedSettings (.framed frames :: trace) = receivedSettings trace :=
  List.countP_cons_of_neg Bool.false_ne_true

@[simp]
theorem receivedSettings_sentAll :
    receivedSettings ((frames.map Entry.sent).reverse ++ trace) = receivedSettings trace := by
  rw [receivedSettings, List.countP_append, List.countP_reverse, List.countP_map]
  exact (congrArg (· + _) (List.countP_eq_zero.mpr fun _ _ => Bool.false_ne_true)).trans
    (zero_add _)

theorem Frame.not_acknowledges (other : frame.kind ≠ .settings) : frame.acknowledges = false := by
  simp [Frame.acknowledges, other]

theorem Frame.not_isSettings (other : frame.kind ≠ .settings) : frame.isSettings = false := by
  simp [Frame.isSettings, other]

theorem countP_acknowledges (other : ∀ frame ∈ frames, frame.kind ≠ .settings) :
    frames.countP Frame.acknowledges = 0 :=
  List.countP_eq_zero.mpr fun frame member => by
    rw [Frame.not_acknowledges (other frame member)]
    exact Bool.false_ne_true

theorem countP_updates {stream : Stream} {ctx : Context} :
    (stream.receivedFrame ctx frame).1.countP Frame.acknowledges = 0 :=
  countP_acknowledges fun update member => by
    rw [Stream.receivedFrame_updates update member]
    decide

@[simp]
theorem Frame.acknowledges_settingsAck : Frame.settingsAck.acknowledges = true := by decide

@[simp]
theorem Frame.acknowledges_createSettings (values : SettingsSet) :
    (Frame.createSettings values false).acknowledges = false := by
  have unset : (0 : Octet) ≠ ackFlag := by decide
  simp [Frame.acknowledges, Frame.hasFlag, Frame.createSettings, unset]

end Counts

/-! ## The server -/

namespace ProtocolHandler

variable {Resource : Type}

/-- The acknowledgements that have been sent or wait to be sent. -/
def acknowledgements (self : ProtocolHandler Resource) : Nat :=
  sentAcknowledgements self.trace + self.answers.countP Frame.acknowledges

/-- A step answers the settings that it receives by one acknowledgement each, and nothing else by an
acknowledgement. -/
def Disciplined (before after : ProtocolHandler Resource) : Prop :=
  after.acknowledgements + receivedSettings before.trace =
    before.acknowledgements + receivedSettings after.trace

/-- The settings that the event brings are not the first ones of the connection, are not an
acknowledgement, and have an entry that is known or no entry at all. -/
def Acknowledgeable (self : ProtocolHandler Resource) : Event Resource → Prop
  | .connect checkPreface =>
      match Frame.read self.ctx.settings
        (self.input.drop (if checkPreface then clientConnectionPreface.length else 0)) with
      | .error _ => True
      | .ok (frame, _) => frame.isSettings = false
  | .receive _ _ =>
      match Frame.read self.ctx.settings self.input with
      | .error _ => True
      | .ok (frame, _) =>
          if frame.payload = .settings none then frame.isSettings = false
          else frame.acknowledges = false
  | _ => True

instance (self : ProtocolHandler Resource) (event : Event Resource) :
    Decidable (self.Acknowledgeable event) := by
  unfold Acknowledgeable
  match event with
  | .connect _ | .receive _ _ =>
      dsimp only
      match Frame.read _ _ with
      | .error _ | .ok _ => infer_instance
  | .upgrade _ _ | .arrive _ | .turn | .write | .leave | .resume | .fail => infer_instance

/-- What the counting of the acknowledgements rests on. -/
structure Orderly (handler : ProtocolHandler Resource) : Prop where
  sound : handler.Sound
  upgraded : handler.h2cAnswer.countP Frame.acknowledges = 0
  parked : handler.phase = .parked → handler.answers = []

section Steps

variable {before after : ProtocolHandler Resource} {frame : Frame}

theorem orderly_create {config : Config} {stack : Nat} {errorBody : Text} :
    Orderly (create config stack errorBody : ProtocolHandler Resource) where
  sound := sound_create
  upgraded := rfl
  parked := nofun

private theorem kind_ne_settings {settings : Connection} (read : frame.IsRead)
    (valid : frame.IsValid settings) (stream_frame : frame.streamId ≠ 0) :
    frame.kind ≠ .settings := by
  intro kind
  cases payload : frame.payload with
  | settings values => simp [Frame.IsValid, Frame.validate, payload, stream_frame] at valid
  | unread kind => exact read kind payload
  | _ => simp [Frame.kind, payload] at kind

/-- What a frame that is handled answers. -/
private theorem disciplined_of_handled {answer : Except Exn (Response Resource)} {crowded : Bool}
    {rest : Octets} (orderly : Orderly before)
    (read : Frame.read before.ctx.settings before.input = .ok (frame, rest))
    (handled : Handled (before.take frame rest) frame answer crowded after) :
    Disciplined before after ↔ if frame.payload = .settings none then frame.isSettings = false
      else frame.acknowledges = false := by
  have upgraded := orderly.upgraded
  cases handled with
  | ignored unknown =>
      have pinged : pingAnswer.acknowledges = false := by decide
      have waiting : (before.answers ++ before.h2cAnswer).countP Frame.acknowledges =
          before.answers.countP Frame.acknowledges := by
        rw [List.countP_append, upgraded, add_zero]
      have counted : Disciplined before ((before.take frame rest).send pingAnswer).again ↔
          frame.isSettings = false := by
        simp only [Disciplined, acknowledgements, again, send, take, sentAcknowledgements_sent,
          sentAcknowledgements_received, receivedSettings_sent, receivedSettings_received, waiting,
          pinged]
        cases frame.isSettings <;> simp
      rw [counted]
      rcases unknown with ⟨payload, -⟩ | payload
      · have kind : frame.kind ≠ .settings := by simp [Frame.kind, payload]
        simp [payload, Frame.not_isSettings kind, Frame.not_acknowledges kind]
      · rw [if_pos payload]
  | control controlled valid defined connection_frame done accepted =>
      have known : frame.payload ≠ .settings none := by
        intro payload
        simp [Frame.IsValid, Frame.validate, payload, connection_frame] at valid
        split at valid
        · cases valid
        · split at valid <;> cases valid
      have counted : ∀ answered : Nat,
          controlled.answers.countP Frame.acknowledges =
            before.answers.countP Frame.acknowledges + answered →
          answered = (if frame.isSettings then 1 else 0) + (if frame.acknowledges then 1 else 0) →
          (Disciplined before { before.take frame rest with
            ctx := { (before.take frame rest).ctx with settings := controlled.settings }
            answers := controlled.answers
            streams := addFlowControl (before.take frame rest).streams
              controlled.addFlowControl }.again ↔ frame.acknowledges = false) := by
        intro answered answers_eq answered_eq
        simp only [Disciplined, acknowledgements, again, take, sentAcknowledgements_received,
          receivedSettings_received, List.countP_append, upgraded, answers_eq, answered_eq]
        cases frame.acknowledges <;> simp <;> omega
      rw [if_neg known]
      cases Connection.controlEffect done with
      | ponged kind same =>
          subst same
          refine counted 0 ?_ ?_
          · have pong : (frame.setFlags ackFlag).kind ≠ .settings := by
              rw [show (frame.setFlags ackFlag).kind = frame.kind from rfl, kind]
              decide
            rw [List.countP_cons_of_neg (by simp [Frame.not_acknowledges pong])]
            rfl
          · simp [Frame.not_isSettings, Frame.not_acknowledges, kind]
      | acknowledged kind acknowledges same =>
          subst same
          refine counted 1 (List.countP_cons_of_pos (by decide)) ?_
          simp [Frame.isSettings, Frame.acknowledges, kind, acknowledges]
      | recorded values payload fresh recorded answered change accepted =>
          have kind : frame.kind = .settings := by rw [Frame.kind, payload]
          refine counted 1 ?_ ?_
          · rw [answered, List.countP_cons_of_pos (by decide)]
            rfl
          · simp [Frame.isSettings, Frame.acknowledges, kind, fresh]
      | credited increment payload valid same =>
          subst same
          have kind : frame.kind ≠ .settings := by simp [Frame.kind, payload]
          exact counted 0 rfl (by simp [Frame.not_isSettings kind, Frame.not_acknowledges kind])
      | overflowed increment payload invalid same =>
          subst same
          cases accepted
      | ignored quiet other same =>
          subst same
          exact counted 0 rfl (by simp [Frame.not_isSettings other, Frame.not_acknowledges other])
  | stream admitted responded stream next ctx updates valid defined stream_frame admits received
      responds =>
      have kind := kind_ne_settings (Frame.isRead_of_valid read valid) valid stream_frame
      have unknown : frame.payload ≠ .settings none := by
        intro payload
        exact kind (by rw [Frame.kind, payload])
      have served : Served (before.take frame rest) frame responded.again :=
        served_of_handled orderly.sound.stream_id read valid admits received responds
      rw [if_neg unknown]
      refine iff_of_true ?_ (Frame.not_acknowledges kind)
      generalize responded.again = after at served
      cases served with
      | intro stream next ctx updates opened streamOpened lastSid keepAlive uploadState willClose
          messages admits stream_id received accepts few fresh =>
          have silent : (stream.receivedFrame (before.take frame rest).ctx frame).1.countP
              Frame.acknowledges = 0 := countP_updates
          rw [received] at silent
          have quiet : sentAcknowledgements (opened ++ .received frame :: before.trace) =
              sentAcknowledgements before.trace ∧
              receivedSettings (opened ++ .received frame :: before.trace) =
                receivedSettings before.trace := by
            cases admits <;> simp [Frame.not_isSettings kind]
          simp only [Disciplined, acknowledgements, take, List.append_assoc,
            sentAcknowledgements_sentAll, receivedSettings_sentAll, quiet.1, quiet.2, silent,
            List.countP_append, upgraded]
          omega

variable [StreamType Resource] {event : Event Resource}

theorem orderly_of_step (orderly : Orderly before) (step : Step before event after) :
    Orderly after := by
  have sound : Sound after := sound_of_step orderly.sound step
  cases step with
  | connected frame values settings octets input phase opened read payload recorded =>
      exact ⟨sound, orderly.upgraded, (by rintro ⟨⟩)⟩
  | upgraded settings response frames message tabEnc input phase opened recorded framed =>
      refine ⟨sound, countP_acknowledges fun frame member => ?_, (by rintro ⟨⟩)⟩
      have kind := (kind_of_framed (Message.framed_of_toFrames framed) frame member).1
      rcases kind with kind | kind | kind <;> simp [kind]
  | arrived octets => exact ⟨sound, orderly.upgraded, orderly.parked⟩
  | waited phase => exact ⟨sound, orderly.upgraded, (by rintro ⟨⟩)⟩
  | framed message rest others stream frames tabEnc phase deferred current allowed framed counted =>
      exact ⟨sound, orderly.upgraded, (by rintro ⟨⟩)⟩
  | wroteControl frame answers phase quiet waiting connection_frame =>
      refine ⟨sound, orderly.upgraded, fun parked => ?_⟩
      rw [send, phase] at parked
      cases parked
  | wroteStream frame answers stream next phase quiet waiting stream_frame current allowed sent =>
      refine ⟨sound, orderly.upgraded, fun parked => ?_⟩
      rw [send, phase] at parked
      cases parked
  | received frame rest after phase read handled =>
      cases handled with
      | ignored unknown => exact ⟨sound, rfl, (by rintro ⟨⟩)⟩
      | control controlled valid defined connection_frame done accepted =>
          exact ⟨sound, rfl, (by rintro ⟨⟩)⟩
      | stream admitted responded stream next ctx updates valid defined stream_frame admits
          received responds => exact ⟨sound, rfl, (by rintro ⟨⟩)⟩
  | parked phase idle quiet =>
      exact ⟨sound, orderly.upgraded, fun _ => List.isEmpty_iff.mp idle.2.2⟩
  | resumed phase => exact ⟨sound, rfl, (by rintro ⟨⟩)⟩

theorem disciplined_iff (orderly : Orderly before) (step : Step before event after) :
    Disciplined before after ↔ before.Acknowledgeable event := by
  cases step with
  | connected frame values settings octets input phase opened read payload recorded =>
      rename_i checkPreface
      have rest : before.input.drop (if checkPreface then clientConnectionPreface.length else 0) =
          octets := by
        rw [opened]
        cases checkPreface
        · rfl
        · exact List.drop_left' rfl
      rw [Acknowledgeable, rest, read]
      simp only [Disciplined, acknowledgements, sentAcknowledgements_sent,
        sentAcknowledgements_received, receivedSettings_sent, receivedSettings_received,
        Frame.acknowledges_createSettings]
      cases frame.isSettings <;> simp
  | upgraded settings response frames message tabEnc input phase opened recorded framed =>
      simp [Disciplined, acknowledgements, Acknowledgeable]
  | arrived octets => simp [Disciplined, acknowledgements, Acknowledgeable]
  | waited phase => simp [Disciplined, acknowledgements, Acknowledgeable]
  | framed message rest others stream frames tabEnc phase deferred current allowed framed counted =>
      have silent : frames.countP Frame.acknowledges = 0 :=
        countP_acknowledges fun frame member => by
          have kind := (kind_of_framed (Message.framed_of_toFrames framed) frame member).1
          rcases kind with kind | kind | kind <;> simp [kind]
      simp [Disciplined, acknowledgements, Acknowledgeable, silent]
  | wroteControl frame answers phase quiet waiting connection_frame =>
      simp only [Disciplined, acknowledgements, Acknowledgeable, send, waiting, List.countP_cons,
        sentAcknowledgements_sent, receivedSettings_sent, iff_true]
      omega
  | wroteStream frame answers stream next phase quiet waiting stream_frame current allowed sent =>
      simp only [Disciplined, acknowledgements, Acknowledgeable, send, waiting, List.countP_cons,
        sentAcknowledgements_sent, receivedSettings_sent, iff_true]
      omega
  | received frame rest after phase read handled =>
      rw [Acknowledgeable, read]
      exact disciplined_of_handled orderly read handled
  | parked phase idle quiet => simp [Disciplined, acknowledgements, Acknowledgeable]
  | resumed phase =>
      simp [Disciplined, acknowledgements, Acknowledgeable, resume, orderly.parked phase]

end Steps

section Runs

variable [StreamType Resource] {config : Config} {stack : Nat} {errorBody : Text}
  {events : List (Event Resource)} {before : ProtocolHandler Resource}

theorem orderly_of_run {guard : ProtocolHandler Resource → Event Resource → Prop}
    (run : Run (Guarded guard (Computes next)) (create config stack errorBody) events before)
    (going_on : before.phase ≠ .closed) : Orderly before :=
  invariant_of_run Orderly orderly_create (fun orderly _ step => orderly_of_step orderly step) run
    going_on

/-- As long as all settings are to be acknowledged, there is one acknowledgement for each. -/
theorem acknowledgements_eq
    (run : Run (Guarded Acknowledgeable (Computes next)) (create config stack errorBody) events
      before)
    (going_on : before.phase ≠ .closed) :
    before.acknowledgements = receivedSettings before.trace := by
  have both : Orderly before ∧ before.acknowledgements = receivedSettings before.trace := by
    refine invariant_of_run (fun state => Orderly state ∧
      state.acknowledgements = receivedSettings state.trace) ⟨orderly_create, rfl⟩ ?_ run going_on
    rintro before after event ⟨orderly, counted⟩ acknowledgeable step
    refine ⟨orderly_of_step orderly step, ?_⟩
    have disciplined := (disciplined_iff orderly step).mpr acknowledgeable
    unfold Disciplined at disciplined
    omega
  exact both.2

end Runs

end ProtocolHandler

/-! ## The client -/

namespace HttpConnection

variable {Resource : Type}

/-- A step answers the settings that it receives by one acknowledgement each, and nothing else by an
acknowledgement. -/
def Disciplined (before after : HttpConnection Resource) : Prop :=
  sentAcknowledgements after.trace + receivedSettings before.trace =
    sentAcknowledgements before.trace + receivedSettings after.trace

/-- The settings that the event brings are not the first ones of the connection, are not an
acknowledgement, and are those of the connection. -/
def Acknowledgeable (self : HttpConnection Resource) : ClientEvent Resource → Prop
  | .receive =>
      match Frame.read self.ctx.settings self.input with
      | .error _ => True
      | .ok (frame, _) =>
          match self.phase with
          | .preface => frame.isSettings = false
          | _ => if frame.streamId = 0 then frame.acknowledges = false
              else frame.isSettings = false
  | _ => True

instance (self : HttpConnection Resource) (event : ClientEvent Resource) :
    Decidable (self.Acknowledgeable event) := by
  unfold Acknowledgeable
  split
  · split
    · infer_instance
    · split
      · infer_instance
      · split <;> infer_instance
  · infer_instance

section Steps

variable {before after self : HttpConnection Resource} {frame : Frame} {frames : List Frame}

/-- The answers to a frame of the connection, on the client. -/
private theorem countP_answers {settings : Connection} {controlled : Controlled}
    (done : settings.handleControlFrame frame [] = .ok controlled) :
    controlled.answers.countP Frame.acknowledges = if frame.kind = .settings then 1 else 0 := by
  cases Connection.controlEffect done with
  | ponged kind same =>
      have pong : (frame.setFlags ackFlag).kind ≠ .settings := by
        rw [show (frame.setFlags ackFlag).kind = frame.kind from rfl, kind]
        decide
      simp [same, kind, Frame.not_acknowledges pong]
  | acknowledged kind acknowledges same => simp [same, kind]
  | recorded values payload fresh recorded answered change accepted =>
      simp [answered, Frame.kind, payload]
  | credited increment payload valid same => simp [same, Frame.kind, payload]
  | overflowed increment payload invalid same => simp [same, Frame.kind, payload]
  | ignored quiet other same => simp [same, other]

/-- What the client writes when it has received a frame. -/
private theorem getFrame_trace (going_on : (self.getFrame frame).1.isRaised = false) :
    ∃ sent : List Frame, (self.getFrame frame).1.trace = (sent.map Entry.sent).reverse ++ self.trace ∧
      sent.countP Frame.acknowledges =
        if frame.streamId = 0 ∧ frame.kind = .settings then 1 else 0 := by
  unfold getFrame at going_on ⊢
  split at going_on
  · next connection_frame =>
      rw [if_pos connection_frame]
      split at going_on
      · next goAway =>
          rw [if_pos goAway]
          refine ⟨[], ?_, by simp [goAway]⟩
          split
          · split <;> rfl
          · rfl
      · next other =>
          rw [if_neg other]
          obtain ⟨controlled, done, trace⟩ := receiveControl_trace going_on
          exact ⟨controlled.answers, trace, by simp [connection_frame, countP_answers done]⟩
  · next stream_frame =>
      rw [if_neg stream_frame]
      obtain ⟨stream, ctx, trace⟩ := receiveStream_trace self frame
      exact ⟨_, trace, by simp [stream_frame, countP_updates]⟩

/-- What a step writes and receives decides whether it is disciplined. -/
private theorem disciplined_of_trace {sent : List Frame} {rest : Octets} {answered : Nat}
    (trace : after.trace = (sent.map Entry.sent).reverse ++ (before.take frame rest).trace)
    (counted : sent.countP Frame.acknowledges = answered) :
    Disciplined before after ↔ answered = if frame.isSettings then 1 else 0 := by
  rw [Disciplined, trace, sentAcknowledgements_sentAll, receivedSettings_sentAll, counted]
  simp only [take, sentAcknowledgements_received, receivedSettings_received]
  omega

/-- What is written without receiving a frame is disciplined when it acknowledges nothing. -/
private theorem disciplined_of_sent (sent : List Frame)
    (trace : after.trace = (sent.map Entry.sent).reverse ++ before.trace)
    (silent : sent.countP Frame.acknowledges = 0) : Disciplined before after := by
  rw [Disciplined, trace, sentAcknowledgements_sentAll, receivedSettings_sentAll, silent]
  omega

/-- The frames of a request acknowledge nothing. -/
private theorem disciplined_of_request [StreamType Resource] {request : Message Resource}
    (going_on : (before.sendRequest request).isRaised = false) :
    Disciplined before (before.sendRequest request) := by
  unfold sendRequest at going_on ⊢
  split at going_on
  · cases going_on
  next stream current =>
  split at going_on
  · cases going_on
  next frames rest tabEnc framed =>
  simp only at going_on ⊢
  split at going_on
  · next raised =>
      rw [raised] at going_on
      cases going_on
  next sent =>
  have trace := sendFrames_trace (Bool.eq_false_iff.mpr sent)
  have silent : frames.countP Frame.acknowledges = 0 :=
    countP_acknowledges fun frame member => by
      have kind := (ProtocolHandler.kind_of_framed (Message.framed_of_toFrames framed) frame
        member).1
      rcases kind with kind | kind | kind <;> simp [kind]
  rw [if_neg sent]
  split
  · exact disciplined_of_sent frames trace silent
  · exact disciplined_of_sent frames trace silent

private theorem disciplined_of_receive (received : before.receive = .ok after)
    (going_on : after.isRaised = false) :
    Disciplined before after ↔ before.Acknowledgeable .receive := by
  unfold receive at received
  rw [Acknowledgeable]
  cases read : Frame.read before.ctx.settings before.input with
  | error exn =>
      rw [read] at received
      cases exn <;> cases received <;> cases going_on
  | ok result =>
      obtain ⟨frame, rest⟩ := result
      rw [read] at received
      simp only at received ⊢
      have got : ∀ {self : HttpConnection Resource}, self.trace = (before.take frame rest).trace →
          (self.getFrame frame).1.isRaised = false →
          after.trace = (self.getFrame frame).1.trace →
          (Disciplined before after ↔ if frame.streamId = 0 then frame.acknowledges = false
            else frame.isSettings = false) := by
        intro self taken open_ trace
        obtain ⟨sent, sent_eq, counted⟩ := getFrame_trace open_
        rw [disciplined_of_trace (trace.trans (sent_eq.trans (by rw [taken]))) counted]
        by_cases connection_frame : frame.streamId = 0 <;> by_cases kind : frame.kind = .settings <;>
          cases flag : frame.hasFlag ackFlag <;>
          simp [connection_frame, kind, flag, Frame.isSettings, Frame.acknowledges]
      have phase : (before.take frame rest).phase = before.phase := rfl
      rw [phase] at received
      split at received
      · next settings_phase =>
          rw [settings_phase]
          cases received
          have trace : ((before.take frame rest).receiveSettings frame).trace =
              (([] : List Frame).map Entry.sent).reverse ++ (before.take frame rest).trace := by
            unfold receiveSettings
            split
            · rfl
            split
            · rfl
            split
            · rfl
            split <;> rfl
          rw [disciplined_of_trace trace rfl]
          cases frame.isSettings <;> simp
      · next blocked =>
          rw [blocked]
          cases received
          exact got rfl going_on rfl
      · next waiting =>
          rw [waiting]
          simp only [Except.ok.injEq] at received
          split at received
          · next raised =>
              subst received
              rw [raised] at going_on
              cases going_on
          · next open_ =>
              subst received
              refine got rfl (Bool.eq_false_iff.mpr open_) ?_
              unfold checkResponse
              split
              · rfl
              · rfl
              · split
                · split <;> rfl
                · rfl
      · cases received

/-- A step is disciplined exactly when the settings it receives are to be acknowledged. -/
theorem disciplined_iff [StreamType Resource] {event : ClientEvent Resource}
    (stepped : before.next event = .ok after) (going_on : after.isRaised = false) :
    Disciplined before after ↔ before.Acknowledgeable event := by
  unfold next at stepped
  split at stepped
  · cases stepped
    refine iff_of_true (disciplined_of_sent [_] rfl ?_) trivial
    exact List.countP_cons_of_neg (by simp)
  · cases stepped
    exact iff_of_true (disciplined_of_sent [] rfl rfl) trivial
  · cases stepped
    exact iff_of_true (disciplined_of_sent [] rfl rfl) trivial
  · cases stepped
    exact iff_of_true (disciplined_of_sent [] rfl rfl) trivial
  · cases stepped
    exact iff_of_true (disciplined_of_request going_on) trivial
  · split at stepped
    · cases stepped
    · cases stepped
      exact iff_of_true (disciplined_of_request going_on) trivial
  · exact disciplined_of_receive stepped going_on
  · split at stepped
    · exact disciplined_of_receive stepped going_on
    · cases stepped
  · exact disciplined_of_receive stepped going_on
  · cases stepped

end Steps

section Runs

variable [StreamType Resource] {config : Config} {stack : Nat}
  {events : List (ClientEvent Resource)} {before : HttpConnection Resource}

/-- A request that an exception has left stays so. -/
theorem going_on_before {after : HttpConnection Resource} {event : ClientEvent Resource}
    (stepped : before.next event = .ok after) (going_on : after.isRaised = false) :
    before.isRaised = false := by
  cases phase : before.phase with
  | raised exn =>
      unfold next at stepped
      rw [phase] at stepped
      cases event <;> cases stepped
      cases going_on
  | _ => simp [isRaised, phase]

/-- As long as all settings are to be acknowledged, there is one acknowledgement for each. -/
theorem acknowledgements_eq
    (run : Run (Guarded Acknowledgeable (Computes next)) (create config stack) events before)
    (going_on : before.isRaised = false) :
    sentAcknowledgements before.trace = receivedSettings before.trace := by
  refine run.invariant (fun state => state.isRaised = false →
    sentAcknowledgements state.trace = receivedSettings state.trace) (fun _ => rfl) ?_ going_on
  rintro before after event held ⟨acknowledgeable, stepped⟩ open_
  have counted := held (going_on_before stepped open_)
  have disciplined := (disciplined_iff stepped open_).mpr acknowledgeable
  unfold Disciplined at disciplined
  omega

end Runs

end HttpConnection

/-! ## Both endpoints -/

section Endpoints

variable {Resource : Type} [StreamType Resource]

/-- An acknowledgement. -/
def acknowledgement : WireFrame :=
  ⟨4, 0x01, false, 0, [], WireFrame.connection_lt, WireFrame.nothing_lt⟩

/-- A connection is upgraded, and settings are received on it. -/
def upgradedSettings : List (Event DiskStream) :=
  [.arrive (ProtocolHandler.clientConnectionPreface ++ ProtocolHandler.closingSettings.octets),
    .upgrade [] (.ok (ProtocolHandler.response (text "200") none)), .turn,
    .receive (.error .constraintError) false]

/-- A connection starts with settings and receives an acknowledgement. -/
def acknowledgedSettings : List (Event DiskStream) :=
  [.arrive (WireFrame.emptySettings.octets ++ acknowledgement.octets), .connect false, .turn,
    .receive (.error .constraintError) false]

end Endpoints

end Http2
end AdaWebServer

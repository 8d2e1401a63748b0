import AdaWebServer.Foundations.Balance
import AdaWebServer.Http2.SendWindow

/-!
# Accounting of the send windows

The trace of a connection tells what each send window should be: the initial window size that the
peer has set last, with the window updates received and without the data sent since the stream was
opened.
-/

namespace AdaWebServer
namespace Http2

open Balance

/-! ## Balances -/

namespace Entry

/-- What an entry adds to the send window of a stream. -/
def sendChange (id : StreamId) : Entry → Int
  | .received frame => if frame.streamId = id then Stream.credit frame else 0
  | .sent frame => if frame.streamId = id then -frame.dataOctets else 0
  | _ => 0

/-- What an entry adds to the send window of the connection. -/
def connectionChange : Entry → Int
  | .received frame => if frame.streamId = 0 then Stream.credit frame else 0
  | .sent frame => -frame.dataOctets
  | _ => 0

/-- An entry changes no send window and opens no stream. -/
def Quiet (entry : Entry) : Prop :=
  entry.connectionChange = 0 ∧ ∀ id, entry.sendChange id = 0 ∧ entry ≠ .opened id

theorem quiet_sent {frame : Frame} (other : frame.kind ≠ .data) : Quiet (.sent frame) := by
  simp [Quiet, connectionChange, sendChange, Frame.dataOctets_of_kind other]

theorem quiet_framed (frames : List Frame) : Quiet (.framed frames) := by
  simp [Quiet, connectionChange, sendChange]

theorem quiet_received {frame : Frame} (other : frame.kind ≠ .windowUpdate) :
    Quiet (.received frame) := by
  have none : Stream.credit frame = 0 := by
    unfold Stream.credit
    split
    · next increment payload => exact absurd (by rw [Frame.kind, payload]) other
    · rfl
  simp [Quiet, connectionChange, sendChange, none]

end Entry

/-- The entry opens the stream. -/
def Entry.opens (id : StreamId) (entry : Entry) : Bool := entry = .opened id

@[simp]
theorem Entry.opens_iff {id : StreamId} {entry : Entry} :
    entry.opens id = true ↔ entry = .opened id := decide_eq_true_iff

/-- What a stream has gained and lost since it was opened. -/
def sendBalance (id : StreamId) (trace : List Entry) : Int :=
  balance (Entry.sendChange id) (Entry.opens id) trace

/-- What the connection has gained and lost. -/
def connectionBalance (trace : List Entry) : Int :=
  balance Entry.connectionChange (fun _ => false) trace

theorem sendBalance_append_of_quiet {entries : List Entry}
    (quiet : ∀ entry ∈ entries, entry.Quiet) (id : StreamId) (trace : List Entry) :
    sendBalance id (entries ++ trace) = sendBalance id trace :=
  balance_append_of_quiet
    (fun entry member =>
      ⟨decide_eq_false ((quiet entry member).2 id).2, ((quiet entry member).2 id).1⟩) trace

theorem connectionBalance_append_of_quiet {entries : List Entry}
    (quiet : ∀ entry ∈ entries, entry.Quiet) (trace : List Entry) :
    connectionBalance (entries ++ trace) = connectionBalance trace :=
  balance_append_of_quiet (fun entry member => ⟨rfl, (quiet entry member).1⟩) trace

theorem sendBalance_cons_of_quiet {entry : Entry} (quiet : entry.Quiet) (id : StreamId)
    (trace : List Entry) : sendBalance id (entry :: trace) = sendBalance id trace :=
  sendBalance_append_of_quiet (List.forall_mem_singleton.mpr quiet) id trace

theorem connectionBalance_cons_of_quiet {entry : Entry} (quiet : entry.Quiet)
    (trace : List Entry) : connectionBalance (entry :: trace) = connectionBalance trace :=
  connectionBalance_append_of_quiet (List.forall_mem_singleton.mpr quiet) trace

@[simp]
theorem sendBalance_opened (id : StreamId) (trace : List Entry) :
    sendBalance id (.opened id :: trace) = 0 := balance_cons_of_starts (Entry.opens_iff.mpr rfl) trace

theorem sendBalance_opened_of_ne {id opened : StreamId} (other : id ≠ opened)
    (trace : List Entry) : sendBalance id (.opened opened :: trace) = sendBalance id trace := by
  have different : (Entry.opened opened).opens id = false :=
    decide_eq_false fun same => other (Entry.opened.inj same).symm
  exact (balance_cons different trace).trans (zero_add _)

theorem sendBalance_received (id : StreamId) (frame : Frame) (trace : List Entry) :
    sendBalance id (.received frame :: trace) =
      (if frame.streamId = id then (Stream.credit frame : Int) else 0) + sendBalance id trace :=
  balance_cons rfl trace

theorem sendBalance_sent (id : StreamId) (frame : Frame) (trace : List Entry) :
    sendBalance id (.sent frame :: trace) =
      (if frame.streamId = id then -(frame.dataOctets : Int) else 0) + sendBalance id trace :=
  balance_cons rfl trace

theorem connectionBalance_received (frame : Frame) (trace : List Entry) :
    connectionBalance (.received frame :: trace) =
      (if frame.streamId = 0 then (Stream.credit frame : Int) else 0) + connectionBalance trace :=
  balance_cons rfl trace

theorem connectionBalance_sent (frame : Frame) (trace : List Entry) :
    connectionBalance (.sent frame :: trace) =
      -(frame.dataOctets : Int) + connectionBalance trace :=
  balance_cons rfl trace

theorem connectionBalance_opened (opened : StreamId) (trace : List Entry) :
    connectionBalance (.opened opened :: trace) = connectionBalance trace :=
  (balance_cons rfl trace).trans (zero_add _)

namespace ProtocolHandler

open Resources Execution

variable {Resource : Type}

/-! ## The invariant -/

/-- The send windows are what the trace says. -/
structure Accounted (handler : ProtocolHandler Resource) : Prop where
  streams_eq : ∀ {id stream}, handler.streams id = some stream →
    stream.flowSendWindow =
      handler.ctx.settings.initialWindowSize + sendBalance id handler.trace
  connection_eq : handler.ctx.settings.flowSendWindow = 65535 + connectionBalance handler.trace

/-- Every send window is between `-(2**31 - 1)` and `2**31 - 1`. -/
structure InRange (handler : ProtocolHandler Resource) : Prop where
  streams_range : ∀ {id stream}, handler.streams id = some stream →
    -(2 ^ 31 - 1) ≤ stream.flowSendWindow ∧ stream.flowSendWindow ≤ 2 ^ 31 - 1
  connection_range : -(2 ^ 31 - 1) ≤ handler.ctx.settings.flowSendWindow ∧
    handler.ctx.settings.flowSendWindow ≤ 2 ^ 31 - 1

/-- What bounds the windows of the streams from below: none is more than `2**31 - 1` under the
initial window size, which is a `Natural`. -/
structure Bounded (handler : ProtocolHandler Resource) : Prop where
  initial_le : handler.ctx.settings.initialWindowSize ≤ naturalLast
  stream_ge : ∀ {id stream}, handler.streams id = some stream →
    (handler.ctx.settings.initialWindowSize : Int) - naturalLast ≤ stream.flowSendWindow
  stream_le : ∀ {id stream}, handler.streams id = some stream →
    stream.flowSendWindow ≤ naturalLast

/-- The change of the initial window size by a settings frame. -/
def initialChange (self : ProtocolHandler Resource) (values : SettingsSet) : Int :=
  ((Connection.lastValue .initialWindowSize values).getD self.ctx.settings.initialWindowSize : Nat) -
    (self.ctx.settings.initialWindowSize : Int)

/-- No window of a stream passes `2**31 - 1` by the settings that are received. -/
def InitialSizeFits (self : ProtocolHandler Resource) : Event Resource → Prop
  | .receive _ _ =>
      match Frame.read self.ctx.settings self.input with
      | .error _ => True
      | .ok (frame, _) =>
          match frame.payload with
          | .settings (some values) => ∀ id, ∀ stream ∈ self.streams id,
              Connection.flowControlWindowValid stream.flowSendWindow (self.initialChange values)
          | _ => True
  | _ => True

/-! ## Steps -/

section Steps

variable {before after : ProtocolHandler Resource} {frame : Frame}

/-- The invariant of the runs: the accounting, the bounds of the windows, and soundness. -/
structure Ledger (handler : ProtocolHandler Resource) : Prop where
  sound : handler.Sound
  accounted : handler.Accounted
  bounded : handler.Bounded

/-- A step that changes no window and opens no stream preserves the ledger. -/
private theorem ledger_of_quiet (entries : List Entry) (ledger : Ledger before) (sound : Sound after)
    (streams : after.streams = before.streams ∨ ∀ id, after.streams id = none)
    (initial : after.ctx.settings.initialWindowSize = before.ctx.settings.initialWindowSize)
    (window : after.ctx.settings.flowSendWindow = before.ctx.settings.flowSendWindow)
    (trace : after.trace = entries ++ before.trace)
    (quiet : ∀ entry ∈ entries, entry.Quiet) : Ledger after := by
  obtain ⟨-, ⟨streams_eq, connection_eq⟩, initial_le, stream_ge, stream_le⟩ := ledger
  have earlier : ∀ {id stream}, after.streams id = some stream →
      before.streams id = some stream := by
    intro id stream current
    rcases streams with same | none
    · rwa [← same]
    · rw [none id] at current
      cases current
  refine ⟨sound, ⟨fun current => ?_, ?_⟩, initial ▸ initial_le,
    fun current => initial ▸ stream_ge (earlier current), fun current => stream_le (earlier current)⟩
  · rw [initial, trace, sendBalance_append_of_quiet quiet]
    exact streams_eq (earlier current)
  · rw [window, trace, connectionBalance_append_of_quiet quiet]
    exact connection_eq

private theorem initialWindowSize_le {settings recorded : Connection} {values : SettingsSet}
    (done : settings.set values = .ok recorded) (small : settings.initialWindowSize ≤ naturalLast) :
    recorded.initialWindowSize ≤ naturalLast := by
  obtain ⟨convertible, rfl⟩ := Connection.set_eq_ok_iff.mp done
  simp only [Connection.initialWindowSize]
  cases last : Connection.lastValue .initialWindowSize values with
  | none => exact small
  | some value => exact Connection.lastValue_le convertible last

/-- The record of the settings, in the words of the guard. -/
private theorem initialWindowSize_change {self : ProtocolHandler Resource} {recorded : Connection}
    {values : SettingsSet} (done : self.ctx.settings.set values = .ok recorded) :
    (recorded.initialWindowSize : Int) - self.ctx.settings.initialWindowSize =
      self.initialChange values := by
  obtain ⟨-, rfl⟩ := Connection.set_eq_ok_iff.mp done
  rfl

/-- A control frame that is not a settings frame for which some window is too large. -/
private theorem ledger_of_control {controlled : Controlled} (ledger : Ledger before)
    (sound : Sound after) (connection_frame : frame.streamId = 0)
    (done : before.ctx.settings.handleControlFrame frame before.answers = .ok controlled)
    (accepted : controlled.error = .noError)
    (fits : ∀ values, frame.payload = .settings (some values) → ∀ id,
      ∀ stream ∈ before.streams id,
        Connection.flowControlWindowValid stream.flowSendWindow (before.initialChange values))
    (streams : after.streams = addFlowControl before.streams controlled.addFlowControl)
    (settings : after.ctx.settings = controlled.settings)
    (trace : after.trace = .received frame :: before.trace) : Ledger after := by
  cases Connection.controlEffect done with
  | ponged kind same =>
      subst same
      rw [addFlowControl_zero] at streams
      exact ledger_of_quiet [.received frame] ledger sound (.inl streams) (by rw [settings])
        (by rw [settings]) trace (by simpa using Entry.quiet_received (by simp [kind]))
  | acknowledged kind acknowledges same =>
      subst same
      rw [addFlowControl_zero] at streams
      exact ledger_of_quiet [.received frame] ledger sound (.inl streams) (by rw [settings])
        (by rw [settings]) trace (by simpa using Entry.quiet_received (by simp [kind]))
  | recorded values payload fresh recorded answered change accepted =>
      obtain ⟨-, ⟨streams_eq, connection_eq⟩, initial_le, stream_ge, stream_le⟩ := ledger
      have quiet : Entry.Quiet (.received frame) :=
        Entry.quiet_received (by simp [Frame.kind, payload])
      have change_eq := initialWindowSize_change recorded
      rw [initialWindowSize_change recorded] at change
      have moved : ∀ {id stream}, after.streams id = some stream → ∃ earlier,
          before.streams id = some earlier ∧
            stream.flowSendWindow = earlier.flowSendWindow + before.initialChange values ∧
            Connection.flowControlWindowValid earlier.flowSendWindow
              (before.initialChange values) := by
        intro id stream current
        rw [streams, change] at current
        obtain ⟨earlier, found, rfl⟩ := addFlowControl_id current
        have valid := fits values payload id earlier found
        refine ⟨earlier, found, ?_, valid⟩
        by_cases zero : before.initialChange values = 0
        · simp [zero]
        · simp [zero, valid, Stream.updateFlowControlWindow]
      have natural := initialWindowSize_le recorded initial_le
      rw [← settings] at change_eq natural
      refine ⟨sound, ⟨fun current => ?_, ?_⟩, natural, fun current => ?_, fun current => ?_⟩
      · obtain ⟨earlier, found, window, -⟩ := moved current
        rw [window, streams_eq found, trace, sendBalance_cons_of_quiet quiet]
        omega
      · rw [settings, (Connection.set_windows recorded).1, connection_eq, trace,
          connectionBalance_cons_of_quiet quiet]
      · obtain ⟨earlier, found, window, -⟩ := moved current
        have ge := stream_ge found
        omega
      · obtain ⟨earlier, found, window, valid⟩ := moved current
        have le := stream_le found
        simp only [Connection.flowControlWindowValid, Bool.or_eq_true, decide_eq_true_eq] at valid
        simp only [naturalLast] at le ⊢
        omega
  | credited increment payload valid same =>
      subst same
      obtain ⟨known, ⟨streams_eq, connection_eq⟩, initial_le, stream_ge, stream_le⟩ := ledger
      rw [addFlowControl_zero] at streams
      have initial : after.ctx.settings.initialWindowSize =
          before.ctx.settings.initialWindowSize := by
        rw [settings]
        rfl
      refine ⟨sound, ⟨fun current => ?_, ?_⟩, initial ▸ initial_le, fun current => ?_,
        fun current => ?_⟩
      · rw [streams] at current
        have other : frame.streamId ≠ _ := connection_frame ▸ (known.stream_id current).2.symm
        rw [initial, streams_eq current, trace, sendBalance_received, if_neg other, zero_add]
      · rw [settings, trace, connectionBalance_received, if_pos connection_frame, Stream.credit,
          payload]
        simp only [Connection.updateFlowControlWindow, connection_eq]
        omega
      · rw [streams] at current
        exact initial ▸ stream_ge current
      · rw [streams] at current
        exact stream_le current
  | overflowed increment payload invalid same =>
      subst same
      cases accepted
  | ignored quiet other same =>
      subst same
      rw [addFlowControl_zero] at streams
      exact ledger_of_quiet [.received frame] ledger sound (.inl streams) (by rw [settings])
        (by rw [settings]) trace (by simpa using Entry.quiet_received quiet)

section Served

variable {stream next : Stream} {ctx : Context} {opened : List Entry} {streamOpened : Nat}
  {lastSid : StreamId}

private theorem credit_of_fresh {size : Nat}
    (accepts : (Stream.create frame.streamId size).Accepts before.ctx frame next ctx) :
    Stream.credit frame = 0 := by
  unfold Stream.credit
  split
  · next increment payload =>
      have state := accepts.state
      simp [Stream.receiveState, Stream.create, Frame.kind, payload] at state
  · rfl

/-- The window of the stream of an accepted frame, and the balances behind it. -/
private theorem balances_of_admits (ledger : Ledger before)
    (admits : Admits before frame stream opened streamOpened lastSid)
    (accepts : stream.Accepts before.ctx frame next ctx) :
    stream.flowSendWindow + Stream.credit frame =
        before.ctx.settings.initialWindowSize +
          sendBalance frame.streamId (opened ++ .received frame :: before.trace) ∧
      (∀ id, id ≠ frame.streamId →
        sendBalance id (opened ++ .received frame :: before.trace) =
          sendBalance id before.trace) ∧
      connectionBalance (opened ++ .received frame :: before.trace) =
        connectionBalance (.received frame :: before.trace) ∧
      (before.ctx.settings.initialWindowSize : Int) - naturalLast ≤ stream.flowSendWindow ∧
      stream.flowSendWindow ≤ naturalLast := by
  obtain ⟨known, ⟨streams_eq, connection_eq⟩, initial_le, stream_ge, stream_le⟩ := ledger
  have received_other : ∀ id, id ≠ frame.streamId →
      sendBalance id (.received frame :: before.trace) = sendBalance id before.trace := by
    intro id other
    rw [sendBalance_received, if_neg (Ne.symm other), zero_add]
  cases admits with
  | current found =>
      refine ⟨?_, received_other, rfl, stream_ge found, stream_le found⟩
      rw [streams_eq found, List.nil_append, sendBalance_received, if_pos rfl]
      omega
  | fresh absent small ordered =>
      refine ⟨?_, fun id other => ?_, connectionBalance_opened _ _, ?_, Int.ofNat_le.mpr initial_le⟩
      · rw [credit_of_fresh accepts, List.singleton_append, sendBalance_opened]
        rfl
      · rw [List.singleton_append, sendBalance_opened_of_ne other, received_other id other]
      · exact Int.sub_le_self _ (Int.natCast_nonneg _)

end Served

/-- A frame that a stream has accepted. -/
private theorem ledger_of_served {rest : Octets} (ledger : Ledger before) (sound : Sound after)
    (stream_frame : frame.streamId ≠ 0) (served : Served (before.take frame rest) frame after) :
    Ledger after := by
  cases served with
  | intro stream next ctx updates opened streamOpened lastSid keepAlive uploadState willClose
      messages admits stream_id received accepts few fresh =>
      have admits : Admits before frame stream opened streamOpened lastSid := by
        cases admits with
        | current found => exact .current found
        | fresh absent small ordered => exact .fresh absent small ordered
      obtain ⟨own, others, connection, window_ge, window_le⟩ :=
        balances_of_admits ledger admits accepts
      obtain ⟨-, ⟨streams_eq, connection_eq⟩, initial_le, stream_ge, stream_le⟩ := ledger
      have initial : ctx.settings.initialWindowSize = before.ctx.settings.initialWindowSize :=
        congrFun accepts.values _
      have window : ctx.settings.flowSendWindow = before.ctx.settings.flowSendWindow :=
        accepts.connection_window
      have quiet : ∀ entry ∈ (updates.map Entry.sent).reverse, entry.Quiet := by
        intro entry member
        obtain ⟨update, sent, rfl⟩ := List.mem_map.mp (List.mem_reverse.mp member)
        have kind := Stream.receivedFrame_updates update (by rw [received]; exact sent)
        exact Entry.quiet_sent (by rw [kind]; decide)
      have valid := accepts.window_valid
      simp only [Connection.flowControlWindowValid, Bool.or_eq_true, decide_eq_true_eq] at valid
      have credited := accepts.flowSendWindow
      -- the stream of the frame, or one of the others
      have cases_stream : ∀ {id current}, Function.update before.streams frame.streamId
          (some { next with keepAlive, uploadState }) id = some current →
          (id = frame.streamId ∧ current.flowSendWindow = next.flowSendWindow) ∨
            (id ≠ frame.streamId ∧ before.streams id = some current) := by
        intro id current found
        by_cases same : id = frame.streamId
        · subst same
          rw [Function.update_self] at found
          cases found
          exact .inl ⟨rfl, rfl⟩
        · rw [Function.update_of_ne same] at found
          exact .inr ⟨same, found⟩
      refine ⟨sound, ⟨fun found => ?_, ?_⟩, initial ▸ initial_le, fun found => ?_, fun found => ?_⟩
      · simp only [List.append_assoc]
        rw [initial, sendBalance_append_of_quiet quiet]
        rcases cases_stream found with ⟨rfl, same⟩ | ⟨other, earlier⟩
        · rw [same, credited]
          exact own
        · exact (streams_eq earlier).trans (by rw [← others _ other]; rfl)
      · simp only [List.append_assoc]
        rw [window, connectionBalance_append_of_quiet quiet, connection_eq]
        refine congrArg _ (Eq.symm (connection.trans ?_))
        rw [connectionBalance_received, if_neg stream_frame, zero_add]
      · rw [initial]
        rcases cases_stream found with ⟨rfl, same⟩ | ⟨other, earlier⟩
        · omega
        · exact stream_ge earlier
      · rcases cases_stream found with ⟨rfl, same⟩ | ⟨other, earlier⟩
        · simp only [naturalLast] at window_le ⊢
          omega
        · exact stream_le earlier

theorem ledger_create {config : Config} {stack : Nat} {errorBody : Text} :
    Ledger (create config stack errorBody : ProtocolHandler Resource) where
  sound := sound_create
  accounted := by
    refine ⟨nofun, ?_⟩
    rw [create_flowSendWindow]
    rfl
  bounded := by
    refine ⟨?_, nofun, nofun⟩
    rw [create, Context.create, Connection.configured_eq]
    exact config.initialWindowSize.2.2

/-- The start of a connection, by an upgrade or not. -/
private theorem ledger_of_start {settings : Connection} {values : SettingsSet}
    (ledger : Ledger before) (sound : Sound after) (phase : before.phase = .start)
    (recorded : before.ctx.settings.set values = .ok settings)
    (settings_eq : after.ctx.settings = settings)
    (streams : ∀ {id stream}, after.streams id = some stream →
      stream.flowSendWindow = settings.initialWindowSize ∧ sendBalance id after.trace = 0)
    (connection : connectionBalance after.trace = 0) : Ledger after := by
  obtain ⟨known, ⟨-, connection_eq⟩, initial_le, -, -⟩ := ledger
  obtain ⟨-, -, -, -, empty⟩ := known.fresh phase
  have small := initialWindowSize_le recorded initial_le
  refine ⟨sound, ⟨fun found => ?_, ?_⟩, settings_eq ▸ small, fun found => ?_, fun found => ?_⟩
  · rw [settings_eq, (streams found).1, (streams found).2, add_zero]
  · rw [settings_eq, (Connection.set_windows recorded).1, connection_eq, empty, connection]
    rfl
  · rw [settings_eq, (streams found).1]
    exact Int.sub_le_self _ (Int.natCast_nonneg _)
  · rw [(streams found).1]
    exact Int.ofNat_le.mpr small

/-- A frame of a stream has been sent. -/
private theorem ledger_of_sent {stream next : Stream} (ledger : Ledger before) (sound : Sound after)
    (queued : frame.Queued)
    (current : before.streams frame.streamId = some stream) (sent : stream.sendFrame frame = .ok next)
    (streams : ∀ {id stream}, after.streams id = some stream →
      (id = frame.streamId ∧ stream = next) ∨
        (id ≠ frame.streamId ∧ before.streams id = some stream))
    (settings : after.ctx.settings = charged before.ctx.settings frame)
    (allowed : before.CanSend frame stream)
    (trace : after.trace = .sent frame :: before.trace) : Ledger after := by
  obtain ⟨-, ⟨streams_eq, connection_eq⟩, initial_le, stream_ge, stream_le⟩ := ledger
  have initial : after.ctx.settings.initialWindowSize = before.ctx.settings.initialWindowSize := by
    rw [settings, charged]
    split <;> rfl
  have window : next.flowSendWindow = stream.flowSendWindow - frame.dataOctets := by
    rw [(Stream.sendFrame_eq_ok sent).2.2.1]
    split
    · next data => rw [queued.length data]
    · next other => simp [Frame.dataOctets_of_kind other]
  have within : stream.flowSendWindow - frame.dataOctets = stream.flowSendWindow ∨
      0 ≤ stream.flowSendWindow - (frame.dataOctets : Int) := by
    by_cases data : frame.kind = .data
    · have fits := le_min_iff.mp (allowed data)
      rw [queued.length data] at fits
      omega
    · simp [Frame.dataOctets_of_kind data]
  refine ⟨sound, ⟨fun found => ?_, ?_⟩, initial ▸ initial_le, fun found => ?_, fun found => ?_⟩
  · rw [initial, trace, sendBalance_sent]
    rcases streams found with ⟨rfl, rfl⟩ | ⟨other, earlier⟩
    · rw [window, streams_eq current, if_pos rfl]
      omega
    · rw [streams_eq earlier, if_neg (Ne.symm other), zero_add]
  · rw [settings, charged_flowSendWindow, trace, connectionBalance_sent, connection_eq]
    split
    · next data =>
        rw [queued.length data]
        omega
    · next other => simp [Frame.dataOctets_of_kind other]
  · rw [initial]
    rcases streams found with ⟨rfl, rfl⟩ | ⟨other, earlier⟩
    · have ge := stream_ge current
      omega
    · exact stream_ge earlier
  · rcases streams found with ⟨rfl, rfl⟩ | ⟨other, earlier⟩
    · have le := stream_le current
      omega
    · exact stream_le earlier

variable [StreamType Resource] {event : Event Resource}

theorem ledger_of_step (ledger : Ledger before) (fits : before.InitialSizeFits event)
    (step : Step before event after) : Ledger after := by
  have sound : Sound after := sound_of_step ledger.sound step
  cases step with
  | connected frame values settings octets input phase opened read payload recorded =>
      obtain ⟨streams, -, -, -, empty⟩ := ledger.sound.fresh phase
      refine ledger_of_start ledger sound phase recorded rfl (fun found => ?_) ?_
      · rw [streams] at found
        cases found
      · have quiet : Entry.Quiet (.received frame) :=
          Entry.quiet_received (by simp [Frame.kind, payload])
        simp only
        rw [connectionBalance_cons_of_quiet (Entry.quiet_sent (by simp [Frame.kind,
          Frame.createSettings])), connectionBalance_cons_of_quiet quiet, empty]
        rfl
  | upgraded settings response frames message tabEnc input phase opened recorded framed =>
      obtain ⟨streams, -, -, -, empty⟩ := ledger.sound.fresh phase
      refine ledger_of_start ledger sound phase recorded rfl (fun {id stream} found => ?_) ?_
      · simp only [streams] at found ⊢
        rw [sendBalance_cons_of_quiet (Entry.quiet_framed frames)]
        by_cases same : id = 1
        · subst same
          rw [Function.update_self] at found
          cases found
          exact ⟨rfl, sendBalance_opened 1 _⟩
        · rw [Function.update_of_ne same] at found
          cases found
      · simp only
        rw [connectionBalance_cons_of_quiet (Entry.quiet_framed frames), connectionBalance_opened,
          connectionBalance_cons_of_quiet (Entry.quiet_sent (by simp [Frame.kind,
          Frame.createSettings])), empty]
        rfl
  | arrived octets => exact ledger_of_quiet [] ledger sound (.inl rfl) rfl rfl rfl (by simp)
  | waited phase => exact ledger_of_quiet [] ledger sound (.inl rfl) rfl rfl rfl (by simp)
  | framed message rest others stream frames tabEnc phase deferred current allowed framed counted =>
      exact ledger_of_quiet [.framed frames] ledger sound (.inl rfl) rfl rfl rfl
        (by simpa using Entry.quiet_framed frames)
  | wroteControl frame answers phase quiet waiting connection_frame =>
      have other : frame.kind ≠ .data := fun data =>
        (ledger.sound.queued frame (by simp [waiting])).stream_frame data connection_frame
      exact ledger_of_quiet [.sent frame] ledger sound (.inl rfl) rfl rfl rfl
        (by simpa using Entry.quiet_sent other)
  | wroteStream frame answers stream next phase quiet waiting stream_frame current allowed sent =>
      have next_id : next.id = frame.streamId :=
        (Stream.sendFrame_eq_ok sent).1.trans (ledger.sound.stream_id current).1
      refine ledger_of_sent ledger sound (ledger.sound.queued frame (by simp [waiting])) current sent
        (fun {id stream} found => ?_) rfl allowed rfl
      simp only [next_id] at found
      by_cases same : id = frame.streamId
      · subst same
        split at found
        · rw [Function.update_self] at found
          cases found
        · rw [Function.update_self] at found
          cases found
          exact .inl ⟨rfl, rfl⟩
      · refine .inr ⟨same, ?_⟩
        split at found
        · rwa [Function.update_of_ne same, Function.update_of_ne same] at found
        · rwa [Function.update_of_ne same] at found
  | received frame rest after phase read handled =>
      rw [InitialSizeFits, read] at fits
      cases handled with
      | ignored unknown =>
          have quiet : Entry.Quiet (.received frame) := by
            refine Entry.quiet_received ?_
            rcases unknown with ⟨payload, -⟩ | payload <;> simp [Frame.kind, payload]
          exact ledger_of_quiet [.sent pingAnswer, .received frame] ledger sound (.inl rfl) rfl rfl
            rfl (by simpa using And.intro (Entry.quiet_sent (by decide)) quiet)
      | control controlled valid defined connection_frame done accepted =>
          refine ledger_of_control ledger sound connection_frame done accepted ?_ rfl rfl rfl
          intro values payload
          simpa only [payload] using fits
      | stream admitted responded stream next ctx updates valid defined stream_frame admits
          received responds =>
          exact ledger_of_served ledger sound stream_frame
            (served_of_handled ledger.sound.stream_id read valid admits received responds)
  | parked phase idle quiet => exact ledger_of_quiet [] ledger sound (.inl rfl) rfl rfl rfl (by simp)
  | resumed phase =>
      exact ledger_of_quiet [] ledger sound (.inr fun _ => rfl) rfl rfl rfl (by simp)

theorem fits_of_accounted (ledger : Ledger before) (step : Step before event after)
    (accounted : Accounted after) : before.InitialSizeFits event := by
  cases step with
  | received frame rest after phase read handled =>
      rw [InitialSizeFits, read]
      simp only
      split
      · next values payload =>
          intro id stream found
          by_contra invalid
          cases handled with
          | ignored unknown =>
              rcases unknown with ⟨other, -⟩ | other <;> rw [payload] at other <;> cases other
          | control controlled valid defined connection_frame done accepted =>
              have kind : frame.kind = .settings := by rw [Frame.kind, payload]
              cases Connection.controlEffect done with
              | recorded others other fresh recorded answered change accepted =>
                  obtain rfl : values = others := by
                    rw [payload] at other
                    cases other
                    rfl
                  have settings : (before.take frame rest).ctx.settings = before.ctx.settings := rfl
                  rw [settings] at recorded change
                  have change_eq := initialWindowSize_change recorded
                  rw [change_eq] at change
                  have kept : addFlowControl before.streams controlled.addFlowControl id =
                      some stream := by
                    rw [addFlowControl, Option.mem_def.mp found, change]
                    simp [invalid]
                  have later := accounted.streams_eq kept
                  have earlier := ledger.accounted.streams_eq found
                  have same : sendBalance id (.received frame :: before.trace) =
                      sendBalance id before.trace :=
                    sendBalance_cons_of_quiet (Entry.quiet_received (by simp [kind])) id _
                  have unchanged : before.initialChange values = 0 := by
                    rw [← change_eq]
                    have trace : sendBalance id (before.take frame rest).trace =
                        sendBalance id before.trace := same
                    simp only [again, trace] at later
                    omega
                  rw [unchanged] at invalid
                  exact invalid rfl
              | ponged other => rw [kind] at other; cases other
              | acknowledged other acknowledges =>
                  obtain rfl := Frame.values_of_acknowledgement read valid payload acknowledges
                  exact invalid (by simp [initialChange, Connection.lastValue,
                    Connection.flowControlWindowValid])
              | credited increment other => rw [payload] at other; cases other
              | overflowed increment other => rw [payload] at other; cases other
              | ignored quiet other => exact absurd kind other
          | stream admitted responded stream next ctx updates valid defined stream_frame =>
              rw [Frame.IsValid, Frame.validate, payload] at valid
              simp [stream_frame] at valid
      · trivial
  | _ => trivial

end Steps

/-! ## Overflows -/

section Overflows

variable {before after : ProtocolHandler Resource} {frame : Frame} {rest : Octets}
  {answer : Except Exn (Response Resource)} {crowded : Bool}

/-- The frame is a window update by which a window would pass `2**31 - 1`. -/
def Overflows (before : ProtocolHandler Resource) (frame : Frame) : Prop :=
  ∃ increment, frame.payload = .windowUpdate increment ∧
    if frame.streamId = 0 then
      ¬ Connection.flowControlWindowValid before.ctx.settings.flowSendWindow increment
    else
      ∃ stream ∈ before.streams frame.streamId,
        ¬ Connection.flowControlWindowValid stream.flowSendWindow increment

/-- A window update of the stream may come now. -/
def Expected (before : ProtocolHandler Resource) (frame : Frame) : Prop :=
  ∀ stream ∈ before.streams frame.streamId,
    (∃ state, stream.Checked frame state) ∧ stream.inHeaderBlock = false

/-- The frame that signals the flow-control error. -/
def overflowAnswer (before : ProtocolHandler Resource) (frame : Frame) : Frame :=
  if frame.streamId = 0 then
    .createGoAway before.lastSid .flowControlError (text "S200") []
  else
    .createRstStream .flowControlError frame.streamId

private theorem closed_of_overflow (sound : Sound before)
    (read : Frame.read before.ctx.settings before.input = .ok (frame, rest))
    (overflows : before.Overflows frame) :
    ((before.take frame rest).dispatch frame answer crowded).phase = .closed := by
  obtain ⟨increment, payload, overflow⟩ := overflows
  have kind : frame.kind = .windowUpdate := by rw [Frame.kind, payload]
  by_contra going_on
  have handled := handled_of_dispatch going_on
  generalize (before.take frame rest).dispatch frame answer crowded = after at handled
  cases handled with
  | ignored unknown => rcases unknown with ⟨other, -⟩ | other <;> rw [payload] at other <;> cases other
  | control controlled valid defined connection_frame done accepted =>
      rw [if_pos connection_frame] at overflow
      cases Connection.controlEffect done with
      | ponged other => rw [kind] at other; cases other
      | acknowledged other => rw [kind] at other; cases other
      | recorded values other => rw [payload] at other; cases other
      | credited other_increment other valid =>
          rw [payload] at other
          cases other
          exact overflow valid
      | overflowed other_increment other invalid same =>
          subst same
          cases accepted
      | ignored quiet => exact quiet kind
  | stream admitted responded stream next ctx updates valid defined stream_frame admits received
      responds =>
      rw [if_neg stream_frame] at overflow
      obtain ⟨current, found, invalid⟩ := overflow
      have served : Served (before.take frame rest) frame responded.again :=
        served_of_handled sound.stream_id read valid admits received responds
      generalize responded.again = after at served
      cases served with
      | intro stream next ctx updates opened streamOpened lastSid keepAlive uploadState willClose
          messages admits stream_id received accepts few fresh =>
          have same : stream = current := by
            cases admits with
            | current other => exact Option.some.inj (other.symm.trans (Option.mem_def.mp found))
            | fresh absent => exact absurd (absent.symm.trans (Option.mem_def.mp found)) (by rintro ⟨⟩)
          have window_valid := accepts.window_valid
          rw [same, Stream.credit, payload] at window_valid
          exact invalid window_valid

/-- A window update that would let a window pass `2**31 - 1` ends the connection, and unless it comes
at a wrong time it is answered by a flow-control error. -/
theorem overflow_signalled (sound : Sound before)
    (read : Frame.read before.ctx.settings before.input = .ok (frame, rest))
    (overflows : before.Overflows frame) :
    ((before.take frame rest).dispatch frame answer crowded).phase = .closed ∧
      (before.Expected frame →
        ((before.take frame rest).dispatch frame answer crowded).trace =
          .sent (before.overflowAnswer frame) :: .received frame :: before.trace) := by
  refine ⟨closed_of_overflow sound read overflows, fun expected => ?_⟩
  obtain ⟨increment, payload, overflow⟩ := overflows
  have kind : frame.kind = .windowUpdate := by rw [Frame.kind, payload]
  have nonzero : increment ≠ 0 := by
    rintro rfl
    split at overflow
    · exact overflow rfl
    · obtain ⟨stream, -, invalid⟩ := overflow
      exact invalid rfl
  have defined : frame.isDefined = true := by simp [Frame.isDefined, payload, nonzero]
  have valid := Frame.validate_windowUpdate read payload nonzero
  have checks : (before.take frame rest).dispatch frame answer crowded =
      if frame.streamId = 0 then (before.take frame rest).receiveControl frame
      else (before.take frame rest).receiveStream frame answer crowded := by
    have settings : (before.take frame rest).ctx.settings = before.ctx.settings := rfl
    simp only [dispatch, payload, settings, valid, kind, defined]
    rfl
  rw [checks, overflowAnswer]
  split at overflow
  · next connection_frame =>
      have settings : (before.take frame rest).ctx.settings = before.ctx.settings := rfl
      have handled : before.ctx.settings.handleControlFrame frame (before.take frame rest).answers =
          .ok ⟨before.ctx.settings, (before.take frame rest).answers, 0, .flowControlError⟩ := by
        simp [Connection.handleControlFrame, kind, Frame.sizeIncrement, payload, overflow]
      rw [if_pos connection_frame, if_pos connection_frame, receiveControl, settings, handled]
      rfl
  · next stream_frame =>
      obtain ⟨stream, found, invalid⟩ := overflow
      obtain ⟨⟨state, checked⟩, between⟩ := expected stream found
      have stream_id := (sound.stream_id (Option.mem_def.mp found)).1
      have refused : stream.receivedFrame before.ctx frame =
          ([], .ok ((stream.moved state).refuse before.ctx .flowControlError
            (stream.moved state).errorDetail)) := by
        have outside : (stream.moved state).inHeaderBlock = false := between
        have window : (stream.moved state).flowSendWindow = stream.flowSendWindow := rfl
        rw [Stream.receivedFrame_of_checked checked, Stream.receivedContent, payload]
        simp [Stream.receivedWindowUpdate, outside, window, invalid]
      have admits : { before.take frame rest with
          inHeader := (frame.kind = Kind.headers ∨ frame.kind = Kind.continuation) ∧
            ¬ frame.hasFlag endHeadersFlag }.admission frame =
          some ({ before.take frame rest with
            inHeader := (frame.kind = Kind.headers ∨ frame.kind = Kind.continuation) ∧
              ¬ frame.hasFlag endHeadersFlag }, stream) := by
        rw [admission]
        simp only [take, Option.mem_def.mp found]
      rw [if_neg stream_frame, if_neg stream_frame, receiveStream]
      simp only [admits]
      simp only [take, refused, received, Stream.refuse, Stream.moved, sendAll, setStream, send,
        stream_id, if_true, List.map_nil, List.reverse_nil, List.nil_append]

end Overflows

/-! ## Runs -/

section Runs

variable {config : Config} {stack : Nat} {errorBody : Text} {events : List (Event Resource)}
  {before : ProtocolHandler Resource}

private theorem inRange_of_ledger (ledger : Ledger before) : InRange before := by
  obtain ⟨sound, -, initial_le, stream_ge, stream_le⟩ := ledger
  have nonneg := sound.window_nonneg
  have small := sound.window_le
  simp only [naturalLast] at small stream_ge stream_le
  refine ⟨fun found => ?_, by omega, by omega⟩
  have ge := stream_ge found
  have le := stream_le found
  omega

variable [StreamType Resource]

/-- As long as the settings that are received fit the windows of the streams, every send window is
what the trace says and lies between `-(2**31 - 1)` and `2**31 - 1`; a step keeps the accounting
exactly when it receives settings that fit; and a window update that would let a window pass
`2**31 - 1` ends the connection, with a flow-control error unless it comes at a wrong time. -/
theorem accounted_of_run
    (run : Run (Guarded InitialSizeFits (Computes next)) (create config stack errorBody) events
      before)
    (going_on : before.phase ≠ .closed) :
    Accounted before ∧ InRange before ∧
      (∀ event after, before.next event = .ok after → after.phase ≠ .closed →
        (Accounted after ↔ before.InitialSizeFits event)) ∧
      ∀ answer crowded after frame rest,
        Frame.read before.ctx.settings before.input = .ok (frame, rest) → before.Overflows frame →
        before.next (.receive answer crowded) = .ok after →
          after.phase = .closed ∧ (before.Expected frame →
            after.trace = .sent (before.overflowAnswer frame) :: .received frame :: before.trace) := by
  have ledger : Ledger before :=
    invariant_of_run Ledger ledger_create
      (fun ledger fits step => ledger_of_step ledger fits step) run going_on
  refine ⟨ledger.accounted, inRange_of_ledger ledger, fun event after stepped open_ => ?_,
    fun answer crowded after frame rest read overflows stepped => ?_⟩
  · have step := step_of_next stepped open_
    exact ⟨fits_of_accounted ledger step, fun fits => (ledger_of_step ledger fits step).accounted⟩
  · rw [dispatch_of_next read stepped]
    exact overflow_signalled ledger.sound read overflows

end Runs

/-! ## Settings that raise the windows -/

/-- A request with a body. -/
def uploadRequest : WireFrame := ⟨1, 0x04, false, 1, [0x83, 0x86, 0x84], WireFrame.first_lt, by decide⟩

/-- A settings frame that sets `INITIAL_WINDOW_SIZE` to 100. -/
def loweringSettings : WireFrame :=
  ⟨4, 0, false, 0, [0, 4, 0, 0, 0, 100], WireFrame.connection_lt, by decide⟩

/-- A settings frame that sets `INITIAL_WINDOW_SIZE` to its maximum. -/
def raisingSettings : WireFrame :=
  ⟨4, 0, false, 0, [0, 4, 0x7f, 0xff, 0xff, 0xff], WireFrame.connection_lt, by decide⟩

/-- A window update of the stream by 1. -/
def creditOfOne : WireFrame := ⟨8, 0, false, 1, [0, 0, 0, 1], WireFrame.first_lt, by decide⟩

/-- A request is received, then a window update and settings. -/
def updatedRequest (settings : WireFrame) : List (Event DiskStream) :=
  [.arrive (WireFrame.emptySettings.octets ++ uploadRequest.octets ++ creditOfOne.octets ++
      settings.octets), .connect false, .turn, .receive (.error .constraintError) false, .turn,
    .receive (.error .constraintError) false, .turn, .receive (.error .constraintError) false]

/-- Settings that lower the windows fit. -/
private def Lowers (self : ProtocolHandler DiskStream) : Event DiskStream → Bool
  | .receive _ _ =>
      match Frame.read self.ctx.settings self.input with
      | .error _ => true
      | .ok (frame, _) =>
          match frame.payload with
          | .settings (some values) => self.initialChange values ≤ 0
          | _ => true
  | _ => true

private theorem fits_of_lowers {self : ProtocolHandler DiskStream} {event : Event DiskStream}
    (lowers : self.Lowers event = true) : self.InitialSizeFits event := by
  unfold Lowers at lowers
  unfold InitialSizeFits
  split
  · split
    · trivial
    · next read =>
        rw [read] at lowers
        simp only at lowers ⊢
        split
        · next values payload =>
            rw [payload] at lowers
            intro id stream _
            simp only [Connection.flowControlWindowValid, Bool.or_eq_true, decide_eq_true_eq]
            exact .inl (of_decide_eq_true lowers)
        · trivial
  · trivial

/-- A stream whose window has been credited and then lowered. -/
theorem accounted_loweredWindow : ∃ state : ProtocolHandler DiskStream,
    Run (Guarded InitialSizeFits (Computes next)) (create .default 65536 [])
      (updatedRequest loweringSettings) state ∧
    (∃ stream ∈ state.streams 1, stream.flowSendWindow = 101) ∧ Accounted state := by
  obtain ⟨state, run, going_on, window⟩ : ∃ state : ProtocolHandler DiskStream,
      Run (Guarded (fun state event => state.Lowers event = true) (Computes next))
        (create .default 65536 []) (updatedRequest loweringSettings) state ∧
      (state.phase ≠ .closed ∧ ∃ stream ∈ state.streams 1, stream.flowSendWindow = 101) :=
    exists_run_of_follow (by decide +kernel)
  have guarded : Run (Guarded InitialSizeFits (Computes next)) (create .default 65536 [])
      (updatedRequest loweringSettings) state := run.mono fun step => ⟨fits_of_lowers step.1, step.2⟩
  exact ⟨state, guarded, window, (accounted_of_run guarded going_on).1⟩

/-- Settings that raise the initial window size leave the window of the stream as it is, since it
would pass `2**31 - 1`, and the connection goes on. -/
theorem raised_window_ignored : ∃ state : ProtocolHandler DiskStream,
    Run (Computes next) (create .default 65536 []) (updatedRequest raisingSettings) state ∧
    state.phase = .head ∧ ¬ Accounted state := by
  obtain ⟨state, run, phase, initial, balance, stream, found, window⟩ :
      ∃ state : ProtocolHandler DiskStream,
      Run (Guarded (fun _ _ => True) (Computes next)) (create .default 65536 [])
        (updatedRequest raisingSettings) state ∧
      (state.phase = .head ∧ state.ctx.settings.initialWindowSize = 2147483647 ∧
        sendBalance 1 state.trace = 1 ∧
        ∃ stream ∈ state.streams 1, stream.flowSendWindow = 65536) :=
    exists_run_of_follow (by decide +kernel)
  refine ⟨state, run.of_guarded, phase, fun accounted => ?_⟩
  have window_eq := accounted.streams_eq (Option.mem_def.mp found)
  rw [window, initial, balance] at window_eq
  exact absurd window_eq (by decide)

end ProtocolHandler
end Http2
end AdaWebServer

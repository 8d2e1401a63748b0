import AdaWebServer.Http2.Frame

/-!
# Control frames

`Handle_Control_Frame` of the connection: acknowledgements go in front of the frames that wait to be
sent, settings are recorded, and window updates raise the send window of the connection.
-/

namespace AdaWebServer
namespace Http2

/-- `Settings.Object (Frame).Values`. -/
def Frame.values (self : Frame) : Except Exn SettingsSet :=
  match self.payload with
  | .settings (some values) => .ok values
  | _ => .error .constraintError

/-- `Window_Update.Object (Frame).Size_Increment`. -/
def Frame.sizeIncrement (self : Frame) : Except Exn Nat :=
  match self.payload with
  | .windowUpdate sizeIncrement => .ok sizeIncrement
  | _ => .error .constraintError

/-- What `Handle_Control_Frame` leaves. -/
structure Controlled where
  settings : Connection
  answers : List Frame
  addFlowControl : Int
  error : ErrorCode

namespace Connection

/-- `Add_Flow_Control` after the settings of a frame have been looked through. -/
def addFlowControl (initialWindowSize : Nat) (values : SettingsSet) : Int :=
  values.foldl (fun add entry =>
    if entry.id = .initialWindowSize then (entry.value.toNat : Int) - initialWindowSize else add) 0

/-- `Handle_Control_Frame`. -/
def handleControlFrame (self : Connection) (frame : Frame) (answers : List Frame) :
    Except Exn Controlled :=
  if frame.kind = .ping ∧ ¬ frame.hasFlag ackFlag then
    .ok ⟨self, frame.setFlags ackFlag :: answers, 0, .noError⟩
  else if frame.kind = .settings ∧ ¬ frame.hasFlag ackFlag then do
    let values ← frame.values
    let settings ← self.set values
    return ⟨settings, Frame.settingsAck :: answers,
      addFlowControl self.initialWindowSize values, .noError⟩
  else if frame.kind = .settings ∧ frame.hasFlag ackFlag then
    .ok ⟨self, Frame.settingsAck :: answers, 0, .noError⟩
  else if frame.kind = .windowUpdate then do
    let increment ← frame.sizeIncrement
    if flowControlWindowValid self.flowSendWindow increment then
      return ⟨self.updateFlowControlWindow increment, answers, 0, .noError⟩
    else
      return ⟨self, answers, 0, .flowControlError⟩
  else
    .ok ⟨self, answers, 0, .noError⟩

/-! ## What a control frame does -/

private theorem addFlowControl_foldl (initialWindowSize : Nat) (values : SettingsSet) (add : Int) :
    values.foldl (fun add entry =>
      if entry.id = .initialWindowSize then (entry.value.toNat : Int) - initialWindowSize
      else add) add =
      ((lastValue .initialWindowSize values).map fun value =>
        (value : Int) - initialWindowSize).getD add := by
  induction values generalizing add with
  | nil => rfl
  | cons entry values ih =>
      rw [List.foldl_cons, ih, lastValue]
      cases lastValue .initialWindowSize values with
      | some value => rfl
      | none => by_cases same : entry.id = .initialWindowSize <;> simp [same]

/-- The change is that of the setting. -/
theorem addFlowControl_eq {self after : Connection} {values : SettingsSet}
    (recorded : self.set values = .ok after) :
    addFlowControl self.initialWindowSize values =
      (after.initialWindowSize : Int) - self.initialWindowSize := by
  have value : after.initialWindowSize =
      (lastValue .initialWindowSize values).getD self.initialWindowSize := set_values recorded _
  rw [addFlowControl, addFlowControl_foldl, value]
  cases lastValue .initialWindowSize values <;> simp

/-- What a control frame has done, case by case. -/
inductive ControlEffect (state : Connection) (frame : Frame) (answers : List Frame)
    (after : Controlled) : Prop
  /-- The answer to a ping waits in front of the other frames. -/
  | ponged (kind : frame.kind = .ping)
      (same : after = ⟨state, frame.setFlags ackFlag :: answers, 0, .noError⟩)
  /-- An acknowledgement is answered by an acknowledgement. -/
  | acknowledged (kind : frame.kind = .settings) (acknowledges : frame.hasFlag ackFlag = true)
      (same : after = ⟨state, Frame.settingsAck :: answers, 0, .noError⟩)
  /-- Settings have been recorded, and their acknowledgement waits. -/
  | recorded (values : SettingsSet) (payload : frame.payload = .settings (some values))
      (fresh : frame.hasFlag ackFlag = false)
      (done : state.set values = .ok after.settings)
      (answered : after.answers = Frame.settingsAck :: answers)
      (change : after.addFlowControl =
        (after.settings.initialWindowSize : Int) - state.initialWindowSize)
      (accepted : after.error = .noError)
  /-- The send window has been raised. -/
  | credited (increment : Nat) (payload : frame.payload = .windowUpdate increment)
      (valid : flowControlWindowValid state.flowSendWindow increment)
      (same : after = ⟨state.updateFlowControlWindow increment, answers, 0, .noError⟩)
  /-- The send window would have been raised too far. -/
  | overflowed (increment : Nat) (payload : frame.payload = .windowUpdate increment)
      (invalid : ¬ flowControlWindowValid state.flowSendWindow increment)
      (same : after = ⟨state, answers, 0, .flowControlError⟩)
  /-- Nothing has changed. -/
  | ignored (quiet : frame.kind ≠ .windowUpdate) (other : frame.kind ≠ .settings) (same : after = ⟨state, answers, 0, .noError⟩)

theorem controlEffect {self : Connection} {frame : Frame} {answers : List Frame}
    {after : Controlled} (handled : self.handleControlFrame frame answers = .ok after) :
    ControlEffect self frame answers after := by
  unfold handleControlFrame at handled
  split at handled
  · next ping =>
      cases handled
      exact .ponged ping.1 rfl
  split at handled
  · next fresh =>
      simp only [bind_eq_ok_iff] at handled
      obtain ⟨values, values_eq, settings, recorded, handled⟩ := handled
      cases handled
      unfold Frame.values at values_eq
      split at values_eq
      · next payload =>
          cases values_eq
          exact .recorded values payload (Bool.eq_false_iff.mpr fresh.2) recorded rfl
            (addFlowControl_eq recorded) rfl
      · cases values_eq
  next recorded =>
  split at handled
  · next acknowledgement =>
      cases handled
      exact .acknowledged acknowledgement.1 acknowledgement.2 rfl
  next acknowledgement =>
  have other : frame.kind ≠ .settings := by
    intro kind
    by_cases acknowledges : frame.hasFlag ackFlag = true
    · exact acknowledgement ⟨kind, acknowledges⟩
    · exact recorded ⟨kind, acknowledges⟩
  split at handled
  · simp only [bind_eq_ok_iff] at handled
    obtain ⟨increment, increment_eq, handled⟩ := handled
    unfold Frame.sizeIncrement at increment_eq
    split at increment_eq
    · next payload =>
        cases increment_eq
        split at handled
        · next valid =>
            cases handled
            exact .credited increment payload valid rfl
        · next invalid =>
            cases handled
            exact .overflowed increment payload invalid rfl
    · cases increment_eq
  · next quiet =>
      cases handled
      exact .ignored quiet other rfl

end Connection
end Http2
end AdaWebServer

import AdaWebServer.Http2.HandlerSteps
import AdaWebServer.Http2.Wire

/-!
# Synchronisation with the byte stream

The peer sends well-delimited frames, cut into pieces in any way by the socket.  The handler is
synchronised with them when it has consumed the octets of the frames that it has read and no more,
so that it reads the next frame at its header.
-/

namespace AdaWebServer
namespace Http2

/-! ## Reading with more octets behind -/

namespace Frame

private theorem readOctets_append {count : Nat} {octets taken rest : Octets} (later : Octets)
    (read : readOctets count octets = .ok (taken, rest)) :
    readOctets count (octets ++ later) = .ok (taken, rest ++ later) := by
  unfold readOctets at read ⊢
  split at read
  · next enough =>
      cases read
      rw [if_pos (by rw [List.length_append]; omega), List.take_append_of_le_length enough,
        List.drop_append_of_le_length enough]
  · cases read

private theorem readSettings_append {length : Nat} {flags : Octet} {streamId : StreamId}
    {octets rest : Octets} {frame : Frame} (later : Octets)
    (read : readSettings length flags streamId octets = .ok (frame, rest)) :
    readSettings length flags streamId (octets ++ later) = .ok (frame, rest ++ later) := by
  unfold readSettings at read ⊢
  simp only at read ⊢
  split at read
  · next short =>
      cases read
      rw [if_pos short]
  · next long =>
      obtain ⟨⟨data, left⟩, taken, read⟩ := bind_eq_ok_iff.mp read
      rw [if_neg long, readOctets_append later taken, ok_bind]
      simp only at read ⊢
      split at read
      · next unknown =>
          cases read
          rw [if_pos unknown]
          rfl
      · next known =>
          cases read
          rw [if_neg known]
          rfl

/-- Octets behind those that have been read change nothing. -/
theorem read_append {settings : Connection} {octets rest : Octets} {frame : Frame} (later : Octets)
    (read : Frame.read settings octets = .ok (frame, rest)) :
    Frame.read settings (octets ++ later) = .ok (frame, rest ++ later) := by
  obtain ⟨⟨header, after⟩, taken, read⟩ := bind_eq_ok_iff.mp read
  obtain ⟨error, checked, read⟩ := bind_eq_ok_iff.mp read
  rw [Frame.read, readOctets_append later taken, ok_bind]
  simp only at checked read ⊢
  rw [checked, ok_bind]
  split at read
  · next refused =>
      cases read
      rw [if_pos refused]
      rfl
  · next accepted =>
      rw [if_neg accepted]
      split at read
      · next settings =>
          rw [if_pos settings]
          exact readSettings_append later read
      · next other =>
          obtain ⟨⟨content, left⟩, taken, read⟩ := bind_eq_ok_iff.mp read
          cases read
          rw [if_neg other, readOctets_append later taken]
          rfl

end Frame

/-! ## What a frame leaves unread -/

namespace WireFrame

/-- `Frame.Read` of a well-delimited frame: its header has been refused, it is a settings frame, or
it has been read entirely. -/
theorem read_cases {wire : WireFrame} {settings : Connection} {rest left : Octets} {frame : Frame}
    (read : Frame.read settings (wire.octets ++ rest) = .ok (frame, left)) :
    (frame = wire.unread ∧ left = wire.payload ++ rest ∧
      ∃ error, error ≠ .noError ∧ frame.validate settings = .ok error) ∨
    (Kind.ofOctet wire.kind = .settings ∧
      if wire.payload.length < 6 then
        frame = ⟨wire.payload.length, wire.flags, wire.streamId, .settings (some [])⟩ ∧
          left = wire.payload ++ rest
      else
        left = rest ∧ ∃ values, frame.payload = .settings values) ∨
    (frame = wire.toFrame ∧ left = rest ∧ Kind.ofOctet wire.kind ≠ .settings ∧
      Kind.ofOctet wire.kind ≠ .invalid) := by
  rw [read_octets] at read
  obtain ⟨error, checked, read⟩ := bind_eq_ok_iff.mp read
  split at read
  · next refused =>
      cases read
      exact .inl ⟨rfl, rfl, error, refused, checked⟩
  · next accepted =>
      have known : Kind.ofOctet wire.kind ≠ .invalid := by
        intro invalid
        rw [invalid] at checked
        exact accepted fun same => Frame.validateHeader_invalid checked same
      split at read
      · next settings =>
          refine .inr (.inl ⟨settings, ?_⟩)
          by_cases short : wire.payload.length < 6
          · have none_whole : wire.payload.length / 6 = 0 := Nat.div_eq_of_lt short
            rw [if_pos short]
            simp only [Frame.readSettings, none_whole, if_true] at read
            cases read
            exact ⟨rfl, rfl⟩
          · have some_whole : wire.payload.length / 6 ≠ 0 := by omega
            rw [if_neg short]
            refine ⟨?_, Frame.readSettings_payload read⟩
            simp only [Frame.readSettings, some_whole, if_false] at read
            have taken : Frame.readOctets wire.payload.length (wire.payload ++ rest) =
                .ok (wire.payload, rest) := by
              simp [Frame.readOctets]
            rw [taken, ok_bind] at read
            simp only at read
            split at read <;> cases read <;> rfl
      · next other =>
          cases read
          exact .inr (.inr ⟨rfl, rfl, other, known⟩)

end WireFrame

namespace ProtocolHandler

variable {Resource : Type} {wire : WireFrame} {rest left : Octets} {frame : Frame}

/-- A frame after which the handler goes on leaves its payload unread exactly when it is unknown. -/
theorem left_of_handled {taken after : ProtocolHandler Resource} {settings : Connection}
    {answer : Except Exn (Response Resource)} {crowded : Bool}
    (read : Frame.read settings (wire.octets ++ rest) = .ok (frame, left))
    (same : taken.ctx.settings = settings) (handled : Handled taken frame answer crowded after) :
    left = if Kind.ofOctet wire.kind = .invalid then wire.payload ++ rest else rest := by
  have checks : (∃ kind, frame.payload = .unread kind ∧ kind = .invalid) ∨
      (∃ values, frame.payload = .settings values ∧ values = none) ∨
      (frame.isDefined ∧ frame.validate settings = .ok .noError) := by
    cases handled with
    | ignored unknown =>
        rcases unknown with ⟨payload, -⟩ | payload
        · exact .inl ⟨_, payload, rfl⟩
        · exact .inr (.inl ⟨_, payload, rfl⟩)
    | control controlled valid defined => exact .inr (.inr ⟨defined, same ▸ valid⟩)
    | stream admitted responded stream next ctx updates valid defined =>
        exact .inr (.inr ⟨defined, same ▸ valid⟩)
  rcases WireFrame.read_cases read with
    ⟨rfl, rfl, error, refused, checked⟩ | ⟨kind, shape⟩ | ⟨rfl, rfl, -, known⟩
  · rcases checks with ⟨kind, payload, rfl⟩ | ⟨values, payload, -⟩ | ⟨-, valid⟩
    · have invalid : Kind.ofOctet wire.kind = .invalid := Payload.unread.inj payload
      rw [if_pos invalid]
    · cases payload
    · exact absurd (Except.ok.inj (checked.symm.trans valid)) refused
  · rw [if_neg (by rw [kind]; decide)]
    split at shape
    · next short =>
        obtain ⟨rfl, rfl⟩ := shape
        rcases checks with ⟨kind, payload, rfl⟩ | ⟨values, payload, rfl⟩ | ⟨defined, valid⟩
        · cases payload
        · cases payload
        · have empty : wire.payload.length = 0 := by
            by_contra nonempty
            have acknowledges : wire.flags = ackFlag := by
              simpa [Frame.isDefined, Frame.settingsSize] using defined
            simp [Frame.validate, Frame.hasFlag, acknowledges, nonempty] at valid
            split at valid <;> cases valid
          rw [List.length_eq_zero_iff.mp empty, List.nil_append]
    · exact shape.1
  · rw [if_neg known]

end ProtocolHandler

/-! ## Runs on a byte stream -/

/-- The octets that arrive with an event. -/
def Event.arrival {Resource : Type} : Event Resource → Octets
  | .arrive octets => octets
  | _ => []

/-- The start of a connection whose byte stream opens with the given octets: the preface, unless it
has been read before. -/
def Event.Opens {Resource : Type} (opening : Octets) : Event Resource → Prop
  | .connect checkPreface =>
      opening = if checkPreface then ProtocolHandler.clientConnectionPreface else []
  | .upgrade _ _ => opening = ProtocolHandler.clientConnectionPreface
  | _ => True

/-- The event reads a frame. -/
def Event.reads {Resource : Type} : Event Resource → Bool
  | .connect _ => true
  | .receive _ _ => true
  | _ => false

/-- The octets of a sequence of frames. -/
def octetsOfFrames (frames : List WireFrame) : Octets := frames.flatMap WireFrame.octets

/-- What arrives is the opening and well-delimited frames, as far as it has arrived. -/
structure Delivers {Resource : Type} (opening : Octets) (frames : List WireFrame)
    (events : List (Event Resource)) : Prop where
  opens : ∀ event ∈ events, event.Opens opening
  arrivals_prefix : events.flatMap Event.arrival <+: opening ++ octetsOfFrames frames

/-- The entry is a frame that has been read. -/
@[simp]
def Entry.isReceived : Entry → Bool
  | .received _ => true
  | _ => false

namespace ProtocolHandler

variable {Resource : Type}

/-- The number of frames that have been read. -/
def framesRead (self : ProtocolHandler Resource) : Nat := self.trace.countP Entry.isReceived

/-- The octets of the frames that have been read are consumed, and no more. -/
def Synchronised (opening : Octets) (frames : List WireFrame) (events : List (Event Resource))
    (self : ProtocolHandler Resource) : Prop :=
  self.framesRead ≤ frames.length ∧ (self.phase = .start → self.framesRead = 0) ∧
    events.flatMap Event.arrival =
      (if self.phase = .start then [] else opening ++ octetsOfFrames (frames.take self.framesRead)) ++
        self.input

/-- The frame that is read next. -/
def nextFrame (frames : List WireFrame) (self : ProtocolHandler Resource) : Option WireFrame :=
  frames[self.framesRead]?

/-- Nothing has changed but what has been read and what waits to be sent. -/
structure Unaffected (before after : ProtocolHandler Resource) : Prop where
  ctx_eq : after.ctx = before.ctx
  streams_eq : after.streams = before.streams
  deferred_eq : after.deferredMessages = before.deferredMessages
  streamOpened_eq : after.streamOpened = before.streamOpened
  maxStream_eq : after.maxStream = before.maxStream
  lastSid_eq : after.lastSid = before.lastSid
  inHeader_eq : after.inHeader = before.inHeader
  willClose_eq : after.willClose = before.willClose

/-- A frame of unknown type that the event reads changes no state. -/
def Discards (frames : List WireFrame) (before : ProtocolHandler Resource) (event : Event Resource)
    (after : ProtocolHandler Resource) : Prop :=
  event.reads → ∀ wire ∈ before.nextFrame frames, Kind.ofOctet wire.kind = .invalid →
    before.Unaffected after

/-- The frame that the event reads has no payload, or it is of a known type and, as the first frame
of the connection, long enough for a setting. -/
def Passable (frames : List WireFrame) (before : ProtocolHandler Resource)
    (event : Event Resource) : Prop :=
  event.reads → ∀ wire ∈ before.nextFrame frames, wire.payload = [] ∨
    (Kind.ofOctet wire.kind ≠ .invalid ∧ (before.phase = .start → 6 ≤ wire.payload.length))

instance (frames : List WireFrame) (before : ProtocolHandler Resource) (event : Event Resource) :
    Decidable (Passable frames before event) := by
  unfold Passable
  infer_instance

section Steps

variable {before after : ProtocolHandler Resource} {event : Event Resource}
  {events : List (Event Resource)} {opening rest left : Octets} {frames : List WireFrame}
  {wire : WireFrame}

@[simp]
theorem framesRead_take (self : ProtocolHandler Resource) (frame : Frame) (rest : Octets) :
    (self.take frame rest).framesRead = self.framesRead + 1 :=
  List.countP_cons_of_pos rfl

/-- Handling a frame reads nothing more. -/
theorem handled_input {frame : Frame} {answer : Except Exn (Response Resource)} {crowded : Bool}
    (handled : Handled before frame answer crowded after) :
    after.phase = .head ∧ after.input = before.input ∧ after.framesRead = before.framesRead := by
  cases handled with
  | ignored unknown => exact ⟨rfl, rfl, by simp [framesRead, send, again]⟩
  | control controlled => exact ⟨rfl, rfl, rfl⟩
  | stream admitted responded stream next ctx updates _ _ _ admits _ responds =>
      obtain ⟨keepAlive, uploadState, willClose, messages, same, -, -⟩ := stream_result responds
      rw [same]
      rcases admission_eq_some admits with ⟨-, rfl⟩ | ⟨-, -, -, -, rfl⟩
      · exact ⟨rfl, rfl, by simp [framesRead]⟩
      · exact ⟨rfl, rfl, by simp [framesRead]⟩

/-- An unknown frame after which the handler goes on has changed nothing. -/
theorem unaffected_of_unread {frame : Frame} {answer : Except Exn (Response Resource)}
    {crowded : Bool} (unread : frame.payload = .unread .invalid)
    (handled : Handled before frame answer crowded after) : before.Unaffected after := by
  have invalid : ¬ frame.IsValid before.ctx.settings := by
    intro valid
    have kind : frame.kind = .invalid := by rw [Frame.kind, unread]
    rw [Frame.IsValid, Frame.validate, unread] at valid
    simp only [kind] at valid
    exact Frame.validateHeader_invalid valid rfl
  cases handled with
  | ignored unknown => exact ⟨rfl, rfl, rfl, rfl, rfl, rfl, rfl, rfl⟩
  | control controlled valid => exact absurd valid invalid
  | stream admitted responded stream next ctx updates valid => exact absurd valid invalid

/-- Reading the next frame, seen on the whole stream. -/
private theorem read_nextFrame {frame : Frame} {octets left consumed later : Octets}
    {settings : Connection} {count : Nat} (stream : consumed ++ octetsOfFrames (frames.take count) ++
      octets ++ later = consumed ++ octetsOfFrames frames)
    (read : Frame.read settings octets = .ok (frame, left)) :
    ∃ wire rest, frames[count]? = some wire ∧ octets ++ later = wire.octets ++ rest ∧
      octetsOfFrames (frames.take (count + 1)) = octetsOfFrames (frames.take count) ++ wire.octets ∧
      Frame.read settings (wire.octets ++ rest) = .ok (frame, left ++ later) := by
  have behind : octets ++ later = octetsOfFrames (frames.drop count) := by
    have parts : octetsOfFrames frames =
        octetsOfFrames (frames.take count) ++ octetsOfFrames (frames.drop count) := by
      rw [octetsOfFrames, octetsOfFrames, octetsOfFrames, ← List.flatMap_append,
        List.take_append_drop]
    rw [parts, List.append_assoc, List.append_assoc, List.append_cancel_left_eq,
      List.append_cancel_left_eq] at stream
    exact stream
  cases next : frames[count]? with
  | none =>
      rw [List.drop_eq_nil_of_le (List.getElem?_eq_none_iff.mp next)] at behind
      rw [(List.append_eq_nil_iff.mp behind).1] at read
      cases read
  | some wire =>
      obtain ⟨inside, rfl⟩ := List.getElem?_eq_some_iff.mp next
      have head : octets ++ later =
          frames[count].octets ++ octetsOfFrames (frames.drop (count + 1)) := by
        rw [behind, List.drop_eq_getElem_cons inside]
        rfl
      refine ⟨_, _, rfl, head, ?_, ?_⟩
      · rw [List.take_add_one, next, octetsOfFrames, List.flatMap_append]
        simp [octetsOfFrames]
      · rw [← head]
        exact Frame.read_append later read

private theorem consumed_iff {octets later : Octets} {unread : Prop} [Decidable unread]
    (stream : octets ++ later = wire.octets ++ rest)
    (behind : left ++ later = if unread then wire.payload ++ rest else rest) :
    octets = wire.octets ++ left ↔ (unread → wire.payload = []) := by
  by_cases kept : unread
  · rw [if_pos kept] at behind
    have consumed : octets = wire.header ++ left := by
      rw [WireFrame.octets, List.append_assoc, ← behind, ← List.append_assoc,
        List.append_cancel_right_eq] at stream
      exact stream
    rw [consumed, WireFrame.octets, List.append_assoc, List.append_cancel_left_eq]
    constructor
    · intro same _
      exact List.self_eq_append_left.mp same
    · intro empty
      rw [empty kept, List.nil_append]
  · rw [if_neg kept] at behind
    rw [← behind, ← List.append_assoc, List.append_cancel_right_eq] at stream
    exact iff_of_true stream fun unread => absurd unread kept

/-- Reading a frame keeps the handler synchronised exactly when nothing of its payload is left. -/
private theorem synchronised_read_iff {frame : Frame} {octets : Octets} {settings : Connection}
    {count : Nat} {unread : WireFrame → Prop} [∀ wire, Decidable (unread wire)]
    (arrivals : events.flatMap Event.arrival =
      opening ++ octetsOfFrames (frames.take count) ++ octets)
    (delivers : Delivers opening frames events)
    (read : Frame.read settings octets = .ok (frame, after.input))
    (phase : after.phase ≠ .start) (counted : after.framesRead = count + 1)
    (leaves : ∀ (wire : WireFrame) (rest left : Octets),
      Frame.read settings (wire.octets ++ rest) = .ok (frame, left) →
        left = if unread wire then wire.payload ++ rest else rest) :
    ∃ wire rest left, frames[count]? = some wire ∧
      Frame.read settings (wire.octets ++ rest) = .ok (frame, left) ∧
      (Synchronised opening frames events after ↔ (unread wire → wire.payload = [])) := by
  obtain ⟨later, stream⟩ := delivers.arrivals_prefix
  rw [arrivals] at stream
  obtain ⟨wire, rest, next, head, taken, whole⟩ := read_nextFrame stream read
  refine ⟨wire, rest, _, next, whole, ?_⟩
  rw [← consumed_iff head (leaves wire rest _ whole), Synchronised, counted, if_neg phase, arrivals,
    taken, List.append_assoc, List.append_assoc, List.append_assoc, List.append_cancel_left_eq,
    List.append_cancel_left_eq]
  have inside : count + 1 ≤ frames.length := (List.getElem?_eq_some_iff.mp next).1
  exact ⟨fun same => same.2.2, fun same => ⟨inside, fun start => absurd start phase, same⟩⟩

private theorem synchronised_receive_iff {frame : Frame} {answer : Except Exn (Response Resource)}
    {crowded : Bool} (synchronised : Synchronised opening frames events before)
    (phase : before.phase = .sending)
    (read : Frame.read before.ctx.settings before.input = .ok (frame, rest))
    (handled : Handled (before.take frame rest) frame answer crowded after)
    (delivers : Delivers opening frames events) :
    (Synchronised opening frames events after ∧
      Discards frames before (.receive answer crowded) after) ↔
        Passable frames before (.receive answer crowded) := by
  obtain ⟨bounded, -, arrivals⟩ := synchronised
  rw [if_neg (by rw [phase]; decide)] at arrivals
  obtain ⟨phase_after, input_after, count_after⟩ := handled_input handled
  rw [framesRead_take] at count_after
  have input_eq : after.input = rest := input_after
  subst input_eq
  obtain ⟨wire, behind, left, next, whole, iff⟩ := synchronised_read_iff arrivals delivers read
    (by rw [phase_after]; decide) count_after
    (fun wire rest left whole => left_of_handled whole
      (show (before.take frame after.input).ctx.settings = before.ctx.settings from rfl) handled)
  have discards : Discards frames before (.receive answer crowded) after := by
    intro _ other member invalid
    obtain rfl : other = wire := Option.some.inj ((Option.mem_def.mp member).symm.trans next)
    have unread : frame.payload = .unread .invalid := by
      rcases WireFrame.read_cases whole with ⟨rfl, -⟩ | ⟨kind, -⟩ | ⟨-, -, -, known⟩
      · rw [WireFrame.unread, invalid]
      · rw [invalid] at kind
        cases kind
      · exact absurd invalid known
    obtain ⟨a, b, c, d, e, f, g, h⟩ := unaffected_of_unread unread handled
    exact ⟨a, b, c, d, e, f, g, h⟩
  rw [iff]
  constructor
  · rintro ⟨empty, -⟩ _ other member
    obtain rfl : other = wire := Option.some.inj ((Option.mem_def.mp member).symm.trans next)
    by_cases invalid : Kind.ofOctet other.kind = .invalid
    · exact .inl (empty invalid)
    · exact .inr ⟨invalid, fun start => absurd (phase.symm.trans start) (by decide)⟩
  · intro passable
    refine ⟨fun invalid => ?_, discards⟩
    rcases passable rfl wire next with empty | ⟨known, -⟩
    · exact empty
    · exact absurd invalid known

/-- The first settings leave their payload unread exactly when it is too short for a setting. -/
private theorem left_of_settings {settings : Connection} {frame : Frame} {values : SettingsSet}
    (payload : frame.payload = .settings (some values))
    (read : Frame.read settings (wire.octets ++ rest) = .ok (frame, left)) :
    Kind.ofOctet wire.kind ≠ .invalid ∧
      left = if wire.payload.length < 6 then wire.payload ++ rest else rest := by
  rcases WireFrame.read_cases read with ⟨rfl, -⟩ | ⟨kind, shape⟩ | ⟨rfl, -, other, known⟩
  · cases payload
  · refine ⟨by rw [kind]; decide, ?_⟩
    split at shape
    · next short => rw [if_pos short, shape.2]
    · next long => rw [if_neg long, shape.1]
  · exact absurd payload (Frame.payloadOf_ne_settings _ _ _)

private theorem synchronised_connect_iff {frame : Frame} {checkPreface : Bool} {octets : Octets}
    {values : SettingsSet} (synchronised : Synchronised opening frames events before)
    (phase : before.phase = .start)
    (opened : before.input = (if checkPreface then clientConnectionPreface else []) ++ octets)
    (read : Frame.read before.ctx.settings octets = .ok (frame, after.input))
    (payload : frame.payload = .settings (some values)) (started : after.phase ≠ .start)
    (counted : after.framesRead = before.framesRead + 1)
    (opens : opening = if checkPreface then clientConnectionPreface else [])
    (delivers : Delivers opening frames events) :
    (Synchronised opening frames events after ∧
      Discards frames before (.connect checkPreface) after) ↔
        Passable frames before (.connect checkPreface) := by
  obtain ⟨-, unread, arrivals⟩ := synchronised
  rw [if_pos phase, List.nil_append, opened, ← opens] at arrivals
  have none_read : events.flatMap Event.arrival =
      opening ++ octetsOfFrames (frames.take 0) ++ octets := by
    simpa [octetsOfFrames] using arrivals
  obtain ⟨wire, behind, left, next, whole, iff⟩ := synchronised_read_iff none_read delivers read
    started (by rw [counted, unread phase])
    (fun wire rest left whole => (left_of_settings payload whole).2)
  have known := (left_of_settings payload whole).1
  have member_eq : ∀ other ∈ before.nextFrame frames, other = wire := by
    intro other member
    rw [nextFrame, unread phase] at member
    exact Option.some.inj ((Option.mem_def.mp member).symm.trans next)
  rw [iff]
  constructor
  · rintro ⟨empty, -⟩ _ other member
    rw [member_eq other member]
    by_cases short : wire.payload.length < 6
    · exact .inl (empty short)
    · exact .inr ⟨known, fun _ => not_lt.mp short⟩
  · intro passable
    refine ⟨fun short => ?_, fun _ other member invalid => ?_⟩
    · rcases passable rfl wire (by rw [nextFrame, unread phase]; exact next) with
        empty | ⟨-, long⟩
      · exact empty
      · exact absurd (long phase) (not_le.mpr short)
    · rw [member_eq other member] at invalid
      exact absurd invalid known

private theorem synchronised_append (nothing : event.arrival = [])
    (synchronised : Synchronised opening frames events before) :
    Synchronised opening frames (events ++ [event]) before := by
  have same : (events ++ [event]).flatMap Event.arrival = events.flatMap Event.arrival := by
    simp [nothing]
  rw [Synchronised, same]
  exact synchronised

/-- An event that reads no frame keeps the handler synchronised. -/
private theorem synchronised_quiet_iff (synchronised : Synchronised opening frames events before)
    (silent : event.reads = false) (counted : after.framesRead = before.framesRead)
    (phase : before.phase ≠ .start) (started : after.phase ≠ .start)
    (input : after.input = before.input ++ event.arrival) :
    (Synchronised opening frames (events ++ [event]) after ∧ Discards frames before event after) ↔
      Passable frames before event := by
  have unread : ¬ event.reads = true := by
    rw [silent]
    exact Bool.false_ne_true
  obtain ⟨bounded, -, arrivals⟩ := synchronised
  rw [if_neg phase] at arrivals
  refine iff_of_true ⟨⟨counted ▸ bounded, fun start => absurd start started, ?_⟩,
    fun reads => absurd reads unread⟩ fun reads => absurd reads unread
  rw [if_neg started, counted, input, List.flatMap_append, arrivals]
  simp

variable [Resources.StreamType Resource]

/-- An event on a stream of well-delimited frames keeps the handler synchronised exactly when it may
pass. -/
theorem synchronised_step_iff (synchronised : Synchronised opening frames events before)
    (stepped : before.next event = .ok after) (going_on : after.phase ≠ .closed)
    (delivers : Delivers opening frames (events ++ [event])) :
    (Synchronised opening frames (events ++ [event]) after ∧ Discards frames before event after) ↔
      Passable frames before event := by
  cases step_of_next stepped going_on with
  | connected frame values settings octets input phase opened read payload recorded =>
      have opens := delivers.opens _ (List.mem_append_right _ (List.mem_singleton_self _))
      exact synchronised_connect_iff (synchronised_append rfl synchronised) phase opened read
        payload (by simp) (by simp [framesRead, List.countP_cons]) opens delivers
  | upgraded settings response frames' message tabEnc input phase opened recorded framed =>
      have opens := delivers.opens _ (List.mem_append_right _ (List.mem_singleton_self _))
      obtain ⟨-, unread, arrivals⟩ := synchronised
      rw [if_pos phase, List.nil_append, opened] at arrivals
      have none_read := unread phase
      rw [framesRead] at none_read
      refine iff_of_true ⟨⟨?_, by simp, ?_⟩, by simp [Discards, Event.reads]⟩
        (by simp [Passable, Event.reads])
      · simp [framesRead, none_read]
      · rw [List.flatMap_append, arrivals, opens]
        simp [framesRead, none_read, octetsOfFrames, Event.arrival]
  | arrived octets =>
      obtain ⟨bounded, unread, arrivals⟩ := synchronised
      refine iff_of_true ⟨⟨bounded, unread, ?_⟩, by simp [Discards, Event.reads]⟩
        (by simp [Passable, Event.reads])
      rw [List.flatMap_append, arrivals, List.append_assoc]
      simp [Event.arrival, framesRead]
  | waited phase =>
      exact synchronised_quiet_iff synchronised rfl rfl (by rw [phase]; decide)
        (by simp) (by simp [Event.arrival])
  | framed message rest others stream frames tabEnc phase deferred current allowed framed counted =>
      exact synchronised_quiet_iff synchronised rfl (by simp [framesRead])
        (by rw [phase]; decide) (by simp) (by simp [Event.arrival])
  | wroteControl frame answers phase quiet waiting connection_frame =>
      exact synchronised_quiet_iff synchronised rfl (by simp [framesRead, send])
        (by rw [phase]; decide) (by simp [send, phase]) (by simp [Event.arrival, send])
  | wroteStream frame answers stream next phase quiet waiting stream_frame current allowed sent =>
      exact synchronised_quiet_iff synchronised rfl (by simp [framesRead, send])
        (by rw [phase]; decide) (by simp [send, phase]) (by simp [Event.arrival, send])
  | received frame rest after phase read handled =>
      exact synchronised_receive_iff (synchronised_append rfl synchronised) phase read handled
        delivers
  | parked phase idle quiet =>
      exact synchronised_quiet_iff synchronised rfl rfl (by rw [phase]; decide)
        (by simp) (by simp [Event.arrival])
  | resumed phase =>
      exact synchronised_quiet_iff synchronised rfl rfl (by rw [phase]; decide)
        (by simp [resume]) (by simp [Event.arrival, resume])

end Steps

section Runs

open Execution

variable {opening : Octets} {frames : List WireFrame}

private theorem delivers_earlier {events : List (Event Resource)} {event : Event Resource}
    (delivers : Delivers opening frames (events ++ [event])) : Delivers opening frames events where
  opens := fun earlier member => delivers.opens earlier (List.mem_append_left _ member)
  arrivals_prefix := by
    have arrivals := delivers.arrivals_prefix
    rw [List.flatMap_append] at arrivals
    exact (List.prefix_append _ _).trans arrivals

variable [Resources.StreamType Resource]

/-- As long as the frames that are read may pass, the handler is synchronised with the frames of the
peer; and the next event keeps it so, and changes no state for a frame of unknown type, exactly when
its frame may pass. -/
theorem synchronised_of_run {config : Config} {stack : Nat} {errorBody : Text}
    {events : List (Event Resource)} {before : ProtocolHandler Resource}
    (run : Run (Guarded (Passable frames) (Computes next)) (create config stack errorBody) events
      before)
    (delivers : Delivers opening frames events) (going_on : before.phase ≠ .closed) :
    Synchronised opening frames events before ∧
      ∀ event after, before.next event = .ok after → after.phase ≠ .closed →
        Delivers opening frames (events ++ [event]) →
          ((Synchronised opening frames (events ++ [event]) after ∧
            Discards frames before event after) ↔ Passable frames before event) := by
  have synchronised : Synchronised opening frames events before := by
    induction run with
    | nil => exact ⟨Nat.zero_le _, fun _ => rfl, rfl⟩
    | snoc earlier last ih =>
        obtain ⟨passable, stepped⟩ := last
        have earlier := ih (delivers_earlier delivers) (going_on_before stepped going_on)
        exact ((synchronised_step_iff earlier stepped going_on delivers).mpr passable).1
  exact ⟨synchronised, fun event after stepped open_ whole =>
    synchronised_step_iff synchronised stepped open_ whole⟩

/-- A ping. -/
def pingFrame : WireFrame := ⟨6, 0, false, 0, [1, 2, 3, 4, 5, 6, 7, 8], WireFrame.connection_lt, by decide⟩

/-- A frame of unknown type whose payload is a settings frame that sets `INITIAL_WINDOW_SIZE` to 0. -/
def smuggling : WireFrame :=
  ⟨0x10, 0, false, 0, [0, 0, 6, 4, 0, 0, 0, 0, 0, 0, 4, 0, 0, 0, 0], WireFrame.connection_lt, by decide⟩

/-- The first frame of a connection and another one are received. -/
def receiving (frame : WireFrame) : List (Event Resources.DiskStream) :=
  [.arrive (octetsOfFrames [WireFrame.emptySettings, frame]), .connect false, .turn,
    .receive (.error .constraintError) false]

private theorem delivers_receiving (frame : WireFrame) :
    Delivers [] [WireFrame.emptySettings, frame] (receiving frame) where
  opens := by simp [receiving, Event.Opens]
  arrivals_prefix := by simp [receiving, Event.arrival]

/-- Settings and a ping. -/
theorem synchronised_ping : ∃ state,
    Run (Guarded (Passable [WireFrame.emptySettings, pingFrame]) (Computes next))
      (create .default 65536 []) (receiving pingFrame) state ∧
    Synchronised [] [WireFrame.emptySettings, pingFrame] (receiving pingFrame) state := by
  obtain ⟨state, followed, going_on⟩ : ∃ state,
      follow (Passable [WireFrame.emptySettings, pingFrame]) next (create .default 65536 [])
        (receiving pingFrame) = some state ∧ state.phase ≠ .closed := ⟨_, rfl, by decide⟩
  have run := run_of_follow followed
  exact ⟨state, run, (synchronised_of_run run (delivers_receiving pingFrame) going_on).1⟩

/-- The payload of a frame of unknown type is read as the next frame, and handled. -/
theorem unknown_payload_handled : ∃ state after,
    Run (Computes next) (create .default 65536 []) (receiving smuggling) state ∧
    Delivers [] [WireFrame.emptySettings, smuggling] (receiving smuggling) ∧ state.phase ≠ .closed ∧
    ¬ Synchronised [] [WireFrame.emptySettings, smuggling] (receiving smuggling) state ∧
    Run (Computes next) state [.turn, .receive (.error .constraintError) false] after ∧
    after.ctx.settings.initialWindowSize = 0 := by
  obtain ⟨state, after, followed, going_on, left, input, later, window⟩ : ∃ state after,
      follow (fun _ _ => True) next (create .default 65536 []) (receiving smuggling) = some state ∧
      state.phase = .head ∧ state.framesRead = 2 ∧ state.input = smuggling.payload ∧
      follow (fun _ _ => True) next state [.turn, .receive (.error .constraintError) false] =
        some after ∧
      after.ctx.settings.initialWindowSize = 0 := ⟨_, _, rfl, rfl, rfl, rfl, rfl, rfl⟩
  refine ⟨state, after, (run_of_follow followed).of_guarded, delivers_receiving smuggling,
    by rw [going_on]; decide, ?_, (run_of_follow later).of_guarded, window⟩
  rintro ⟨-, -, arrivals⟩
  rw [going_on, left, input] at arrivals
  exact absurd (congrArg List.length arrivals) (by decide)

end Runs

end ProtocolHandler

end Http2
end AdaWebServer

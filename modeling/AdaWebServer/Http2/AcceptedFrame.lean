import AdaWebServer.Http2.Stream

/-!
# Accepted frames

What a stream and the context of its connection have become when a received frame has been accepted.
-/

namespace AdaWebServer
namespace Http2

/-- The payload of the frame has been read. -/
def Frame.IsRead (self : Frame) : Prop := ∀ kind, self.payload ≠ .unread kind

instance (frame : Frame) : Decidable frame.IsRead :=
  match payload : frame.payload with
  | .unread kind => .isFalse fun whole => whole kind payload
  | .data _ | .headers _ | .priority _ | .rstStream _ | .settings _ | .pushPromise _ | .ping _
  | .goAway _ | .windowUpdate _ | .continuation _ => .isTrue fun kind => by simp [payload]

/-! ## Header blocks -/

/-- A turn of the decoder changes no setting but the size of the dynamic tables. -/
theorem Hpack.Decode.field_settings {fault : Option Exn} {stack : Nat}
    {self next : Hpack.DecodeState} {byte : Octet} {octets rest : Octets}
    (turn : Hpack.Decode.field fault stack self byte octets = .ok (next, rest)) :
    ∃ size, next.settings = self.settings.setDynamicHeaderTableSize size := by
  have unchanged : ∃ size, self.settings = self.settings.setDynamicHeaderTableSize size :=
    ⟨self.settings.dynamicHeaderTableSize, rfl⟩
  unfold Hpack.Decode.field at turn
  split_ifs at turn
  · simp only [Hpack.Decode.indexedField, bind_eq_ok_iff, Prod.exists] at turn
    obtain ⟨_, _, _, turn⟩ := turn
    split at turn
    · cases turn
    · simp only [bind_eq_ok_iff] at turn
      obtain ⟨_, _, _, _, _, _, turn⟩ := turn
      cases turn
      exact unchanged
  · simp only [Hpack.Decode.incrementalField, bind_eq_ok_iff, Prod.exists] at turn
    obtain ⟨_, _, _, _, _, _, _, _, _, _, _, _, _, turn⟩ := turn
    cases turn
    exact unchanged
  · simp only [Hpack.Decode.sizeUpdate, bind_eq_ok_iff, Prod.exists] at turn
    obtain ⟨_, _, _, size, _, turn⟩ := turn
    split at turn
    · cases turn
    · cases turn
      exact ⟨size, rfl⟩
  · simp only [Hpack.Decode.plainField, bind_eq_ok_iff, Prod.exists] at turn
    obtain ⟨_, _, _, _, _, _, _, _, _, _, _, turn⟩ := turn
    cases turn
    exact unchanged

/-- Decoding a header block changes no setting but the size of the dynamic tables. -/
theorem Hpack.decode_settings {fault : Option Exn} {stack : Nat} {table : Hpack.DynamicTable}
    {settings : Connection} {octets : Octets} {block : Hpack.DecodeState}
    (decoded : Hpack.decode fault stack table settings octets = .ok block) :
    ∃ size, block.settings = settings.setDynamicHeaderTableSize size := by
  refine Hpack.Decode.fields_preserve
    (fun self => ∃ size, self.settings = settings.setDynamicHeaderTableSize size) ?_
    ⟨settings.dynamicHeaderTableSize, rfl⟩ decoded
  rintro self next byte octets rest ⟨_, same⟩ turn
  obtain ⟨size, changed⟩ := Hpack.Decode.field_settings turn
  exact ⟨size, by rw [changed, same]; rfl⟩

namespace Stream

/-- What `Parse_Headers` leaves. -/
structure Parsed (stream : Stream) (ctx : Context) (next : Stream) (after : Context) : Prop where
  octets : (nextOctets stream.hFrames).2 = none
  next_eq : ∃ headers contentLength uploadState, next = { stream with
    hFrames := []
    headers
    contentLength
    uploadState }
  upload : next.uploadState = stream.uploadState ∨ next.uploadState = .oversize
  after_eq : ∃ tabDec size, after = { ctx with
    tabDec
    settings := ctx.settings.setDynamicHeaderTableSize size }

theorem parseHeaders_eq_ok {self next : Stream} {ctx after : Context}
    (parsed : self.parseHeaders ctx = .ok (next, after)) : Parsed self ctx next after := by
  unfold parseHeaders at parsed
  obtain ⟨block, decoded, parsed⟩ := bind_eq_ok_iff.mp parsed
  obtain ⟨size, settings⟩ := Hpack.decode_settings decoded
  have octets := Hpack.Decode.fault_eq_none decoded
  simp only [settings] at parsed
  split at parsed
  · cases parsed
    exact ⟨octets, ⟨_, _, _, rfl⟩, .inl rfl, _, size, rfl⟩
  · split at parsed
    · cases parsed
    · split_ifs at parsed
      · cases parsed
        exact ⟨octets, ⟨_, _, _, rfl⟩, .inr rfl, _, size, rfl⟩
      · cases parsed
        exact ⟨octets, ⟨_, _, _, rfl⟩, .inl rfl, _, size, rfl⟩

/-! ## One accepted frame -/

/-- The increment of a window update, 0 in any other frame. -/
def credit (frame : Frame) : Nat :=
  match frame.payload with
  | .windowUpdate increment => increment
  | _ => 0

/-- What accepting a frame changes. -/
structure Accepts (stream : Stream) (ctx : Context) (frame : Frame) (next : Stream)
    (after : Context) : Prop where
  id : next.id = stream.id
  id_odd : stream.id = 0 ∨ stream.id % 2 = 1
  state : stream.receiveState frame = .ok next.state
  block_goes_on : stream.hFrames.getLast?.map Frame.kind = some .continuation →
    frame.kind = .continuation
  block_started : frame.kind = .continuation → stream.hFrames ≠ []
  trailers_end : frame.kind = .headers → stream.headerFound → frame.hasFlag endStreamFlag
  headerFound : next.headerFound = (stream.headerFound || frame.kind = .headers)
  endStream : next.endStream =
    (stream.endStream || (frame.kind = .headers && frame.hasFlag endStreamFlag))
  hFrames : next.hFrames =
    if frame.kind = .headers ∨ frame.kind = .continuation then
      if frame.hasFlag endHeadersFlag then [] else stream.hFrames ++ [frame]
    else
      stream.hFrames
  block_sound : (frame.kind = .headers ∨ frame.kind = .continuation) →
    frame.hasFlag endHeadersFlag → (nextOctets (stream.hFrames ++ [frame])).2 = none
  window_valid : Connection.flowControlWindowValid stream.flowSendWindow (credit frame)
  flowSendWindow : next.flowSendWindow = stream.flowSendWindow + credit frame
  upload : next.uploadState = stream.uploadState ∨
    (frame.hasFlag endHeadersFlag ∧ next.uploadState = .oversize)
  bytesSent : next.bytesSent = stream.bytesSent
  keepAlive : next.keepAlive = stream.keepAlive
  config : after.config = ctx.config
  stack : after.stack = ctx.stack
  tabEnc : after.tabEnc = ctx.tabEnc
  values : after.settings.values = ctx.settings.values
  connection_window : after.settings.flowSendWindow = ctx.settings.flowSendWindow

/-- The stream in the state that a received frame leads to. -/
def moved (self : Stream) (state : StateKind) : Stream :=
  { self with
    dataFlow := .receiving
    errorDetail := .noDetails
    state }

section Accepted

variable {self : Stream} {ctx : Context} {frame : Frame} {received : Received}

theorem receiveState_error_ne {error : ErrorCode} {info : ErrorDetails}
    (failed : self.receiveState frame = .error (error, info)) : error ≠ .noError := by
  rintro rfl
  cases before : self.state <;> cases kind : frame.kind <;>
    simp only [receiveState, before, kind] at failed
  all_goals repeat' split at failed
  all_goals cases failed

/-- An accepted frame has passed the checks that do not depend on its content. -/
theorem receivedFrame_checks (accepted : (self.receivedFrame ctx frame).2 = .ok received)
    (ok : received.error = .noError) :
    (self.id = 0 ∨ self.id % 2 = 1) ∧
      (self.hFrames.getLast?.map Frame.kind = some .continuation → frame.kind = .continuation) ∧
      ∃ state, self.receiveState frame = .ok state ∧
        ((self.moved state).receivedContent ctx frame).2 = .ok received := by
  rw [receivedFrame] at accepted
  split at accepted
  · cases accepted
    cases ok
  · next odd =>
      have id_odd : self.id = 0 ∨ self.id % 2 = 1 := by
        rcases Nat.mod_two_eq_zero_or_one self.id with even | one
        · exact .inl (not_not.mp fun nonzero => odd ⟨nonzero, even⟩)
        · exact .inr one
      cases state_eq : self.receiveState frame with
      | error failure =>
          rw [show receiveState { self with
            dataFlow := .receiving, errorDetail := .noDetails } frame = _ from state_eq] at accepted
          cases accepted
          exact absurd ok (receiveState_error_ne state_eq)
      | ok state =>
          rw [show receiveState { self with
            dataFlow := .receiving, errorDetail := .noDetails } frame = _ from state_eq] at accepted
          simp only at accepted
          split at accepted
          · cases accepted
            cases ok
          · next goes_on =>
              exact ⟨id_odd, fun last => not_not.mp fun other => goes_on ⟨last, other⟩, state, rfl,
                accepted⟩

/-- Checks that every accepted frame has passed. -/
structure Checked (stream : Stream) (frame : Frame) (state : StateKind) : Prop where
  id_odd : stream.id = 0 ∨ stream.id % 2 = 1
  block_goes_on : stream.hFrames.getLast?.map Frame.kind = some .continuation →
    frame.kind = .continuation
  state : stream.receiveState frame = .ok state

variable {state : StateKind}

theorem receivedFrame_of_checked (checked : Checked self frame state) :
    self.receivedFrame ctx frame = (self.moved state).receivedContent ctx frame := by
  have odd : ¬(self.id ≠ 0 ∧ self.id % 2 = 0) := by
    rcases checked.id_odd with zero | odd
    · simp [zero]
    · simp [odd]
  have goes_on : ¬(self.hFrames.getLast?.map Frame.kind = some .continuation ∧
      frame.kind ≠ .continuation) := fun broken => broken.2 (checked.block_goes_on broken.1)
  have state_eq : receiveState { self with
      dataFlow := .receiving
      errorDetail := .noDetails } frame = .ok state := checked.state
  rw [receivedFrame, if_neg odd, state_eq]
  exact if_neg goes_on

private theorem receivedPriority_accepts {priority : PriorityPayload}
    (checked : Checked self frame state) (payload : frame.payload = .priority priority)
    (accepted : (self.moved state).receivedPriority ctx priority = received)
    (ok : received.error = .noError) : Accepts self ctx frame received.stream received.ctx := by
  have kind : frame.kind = .priority := by rw [Frame.kind, payload]
  obtain ⟨id_odd, goes_on, state_eq⟩ := checked
  rw [receivedPriority] at accepted
  split at accepted
  · subst accepted
    cases ok
  · subst accepted
    constructor <;>
      simp_all [moved, handlePriority, accept, credit, Connection.flowControlWindowValid]

private theorem receivedWindowUpdate_accepts {increment : Nat}
    (checked : Checked self frame state) (payload : frame.payload = .windowUpdate increment)
    (accepted : (self.moved state).receivedWindowUpdate ctx increment = received)
    (ok : received.error = .noError) : Accepts self ctx frame received.stream received.ctx := by
  have kind : frame.kind = .windowUpdate := by rw [Frame.kind, payload]
  obtain ⟨id_odd, goes_on, state_eq⟩ := checked
  rw [receivedWindowUpdate] at accepted
  split at accepted
  · subst accepted
    cases ok
  split at accepted
  · next valid =>
      subst accepted
      constructor <;> simp_all [moved, accept, credit]
  · subst accepted
    cases ok

private theorem accept_accepts (checked : Checked self frame state)
    (other : frame.kind ≠ .headers ∧ frame.kind ≠ .continuation ∧ frame.kind ≠ .windowUpdate) :
    Accepts self ctx frame (self.moved state) ctx := by
  obtain ⟨id_odd, goes_on, state_eq⟩ := checked
  have none : credit frame = 0 := by
    unfold credit
    split
    · next increment payload => exact absurd (by rw [Frame.kind, payload]) other.2.2
    · rfl
  constructor <;> simp_all [moved, Connection.flowControlWindowValid]

/-- A frame of a header block has been queued and, when it is the last one, the block parsed. -/
private theorem parse_accepts {queued next : Stream} {after : Context} {isReady : Bool}
    (checked : Checked self frame state)
    (block : frame.kind = .headers ∨ frame.kind = .continuation)
    (started : frame.kind = .continuation → self.hFrames ≠ [])
    (trailers : frame.kind = .headers → self.headerFound → frame.hasFlag endStreamFlag)
    (same : ∃ weight streamDependency, queued = { self.moved state with
      hFrames := self.hFrames ++ [frame]
      headerFound := self.headerFound || frame.kind = .headers
      endStream := self.endStream || (frame.kind = .headers && frame.hasFlag endStreamFlag)
      weight
      streamDependency })
    (parsed : (if frame.hasFlag endHeadersFlag then queued.parseHeaders ctx
      else pure (queued, ctx)) = Except.ok (next, after)) :
    Accepts self ctx frame { next with isReady } after := by
  obtain ⟨id_odd, goes_on, state_eq⟩ := checked
  obtain ⟨weight, streamDependency, queued_eq⟩ := same
  have no_credit : credit frame = 0 := by
    unfold credit
    split
    · next increment payload => simp [Frame.kind, payload] at block
    · rfl
  split at parsed
  · next complete =>
      obtain ⟨octets, ⟨_, _, _, next_eq⟩, upload, _, _, after_eq⟩ := parseHeaders_eq_ok parsed
      subst next_eq after_eq queued_eq
      have upload : _ = self.uploadState ∨ _ = UploadState.oversize := upload
      constructor <;> simp_all [moved, Connection.flowControlWindowValid]
  · next incomplete =>
      cases parsed
      subst queued_eq
      constructor <;> simp_all [moved, Connection.flowControlWindowValid]

/-- The stream once a HEADERS frame has been queued. -/
def queued (self : Stream) (frame : Frame) : Stream :=
  { self with
    endStream := self.endStream || frame.hasFlag endStreamFlag
    headerFound := true
    hFrames := self.hFrames ++ [frame] }

/-- A HEADERS frame that is not refused: its priority fields, then its block, then the message. -/
theorem receivedHeaders_eq {content : Octets}
    (lawful : ¬(¬ frame.hasFlag endStreamFlag ∧ self.headerFound)) :
    self.receivedHeaders ctx frame content =
      ((if frame.hasFlag priorityFlag then
          (frame.getPriority content).map (self.queued frame).handlePriority
        else
          .ok (self.queued frame)) >>= fun queued =>
        (if frame.hasFlag endHeadersFlag then queued.parseHeaders ctx
          else pure (queued, ctx)) >>= fun (next, after) =>
        .ok ({ next with
          isReady := decide (next.state ≠ StateKind.idle ∧ frame.hasFlag endHeadersFlag ∧
            frame.hasFlag endStreamFlag) }.accept after)) := by
  rw [receivedHeaders, if_neg lawful]
  by_cases prioritised : frame.hasFlag priorityFlag <;>
    by_cases complete : frame.hasFlag endHeadersFlag <;>
    simp only [prioritised, complete, if_true, pure_eq_ok]
  · cases frame.getPriority content <;> rfl
  · cases frame.getPriority content <;> rfl
  · rfl
  · rfl

private theorem receivedHeaders_accepts {content : Octets}
    (checked : Checked self frame state) (payload : frame.payload = .headers content)
    (accepted : (self.moved state).receivedHeaders ctx frame content = .ok received)
    (ok : received.error = .noError) : Accepts self ctx frame received.stream received.ctx := by
  have kind : frame.kind = .headers := by rw [Frame.kind, payload]
  by_cases refused : ¬ frame.hasFlag endStreamFlag ∧ (self.moved state).headerFound
  · rw [receivedHeaders, if_pos refused] at accepted
    cases accepted
    cases ok
  · rw [receivedHeaders_eq refused] at accepted
    obtain ⟨queued, queued_eq, accepted⟩ := bind_eq_ok_iff.mp accepted
    obtain ⟨⟨next, after⟩, parsed, accepted⟩ := bind_eq_ok_iff.mp accepted
    cases accepted
    refine parse_accepts checked (.inl kind) (by simp [kind]) (fun _ found => ?_) ?_ parsed
    · exact not_not.mp fun missing => refused ⟨missing, found⟩
    · split at queued_eq
      · cases priority_eq : frame.getPriority content with
        | error exn =>
            rw [priority_eq] at queued_eq
            cases queued_eq
        | ok priority =>
            rw [priority_eq] at queued_eq
            cases queued_eq
            exact ⟨priority.weight, priority.streamDependency,
              by simp [kind, handlePriority, moved, queued]⟩
      · cases queued_eq
        exact ⟨self.weight, self.streamDependency, by simp [kind, moved, queued]⟩

theorem receivedContinuation_eq (started : self.hFrames ≠ []) :
    self.receivedContinuation ctx frame =
      ((if frame.hasFlag endHeadersFlag then
          { self with hFrames := self.hFrames ++ [frame] }.parseHeaders ctx
        else pure ({ self with hFrames := self.hFrames ++ [frame] }, ctx)) >>= fun (next, after) =>
      .ok ({ next with
        isReady := decide (next.state ≠ StateKind.idle ∧ frame.hasFlag endHeadersFlag ∧
          (next.endStream ∨ frame.hasFlag endStreamFlag)) }.accept after)) := by
  rw [receivedContinuation, if_neg started]
  by_cases complete : frame.hasFlag endHeadersFlag <;>
    simp only [complete, if_true, pure_eq_ok]
  rfl

private theorem receivedContinuation_accepts {content : Octets}
    (checked : Checked self frame state) (payload : frame.payload = .continuation content)
    (accepted : (self.moved state).receivedContinuation ctx frame = .ok received)
    (ok : received.error = .noError) : Accepts self ctx frame received.stream received.ctx := by
  have kind : frame.kind = .continuation := by rw [Frame.kind, payload]
  by_cases started : (self.moved state).hFrames = []
  · rw [receivedContinuation, if_pos started] at accepted
    cases accepted
    cases ok
  · rw [receivedContinuation_eq started] at accepted
    obtain ⟨⟨next, after⟩, parsed, accepted⟩ := bind_eq_ok_iff.mp accepted
    cases accepted
    exact parse_accepts checked (.inr kind) (fun _ => started) (by simp [kind])
      ⟨self.weight, self.streamDependency, by simp [kind, moved]⟩ parsed

/-- A receive window stays as it is, or a window update opens it to its maximum. -/
inductive Opened (id : StreamId) (window : Int) : List Frame → Int → Prop
  | kept : Opened id window [] window
  | renewed (nonneg : 0 ≤ window) (low : window < naturalLast) :
      Opened id window [Frame.createWindowUpdate id (naturalLast - window.toNat)] naturalLast

theorem openStreamWindow_eq_ok {next : Stream} {updates : List Frame}
    (done : self.openStreamWindow ctx = .ok (updates, next)) :
    ∃ window, Opened self.id self.flowReceiveWindow updates window ∧
      next = { self with flowReceiveWindow := window } := by
  obtain ⟨limit, frame_size, opened⟩ := bind_eq_ok_iff.mp done
  obtain ⟨_, valid, -⟩ := bind_eq_ok_iff.mp opened
  obtain ⟨-, limit_pos, -⟩ := positive_eq_ok valid
  rw [openStreamWindow_eq frame_size limit_pos] at done
  have limit_lt := maxFrameSize_lt frame_size
  split_ifs at done with low nonneg
  · cases done
    exact ⟨_, .renewed nonneg (by omega), rfl⟩
  · cases done
    exact ⟨_, .kept, rfl⟩

theorem openConnectionWindow_eq_ok {after : Context} {updates : List Frame}
    (done : openConnectionWindow ctx = .ok (updates, after)) :
    ∃ window, Opened 0 ctx.settings.flowReceiveWindow updates window ∧
      after = { ctx with settings := { ctx.settings with flowReceiveWindow := window } } := by
  obtain ⟨limit, frame_size, opened⟩ := bind_eq_ok_iff.mp done
  obtain ⟨_, valid, -⟩ := bind_eq_ok_iff.mp opened
  obtain ⟨-, limit_pos, -⟩ := positive_eq_ok valid
  rw [openConnectionWindow_eq frame_size limit_pos] at done
  have limit_lt := maxFrameSize_lt frame_size
  split_ifs at done with low nonneg
  · cases done
    exact ⟨_, .renewed nonneg (by omega), rfl⟩
  · cases done
    exact ⟨_, .kept, rfl⟩

private theorem receivedData_accepts {content : Octets}
    (checked : Checked self frame state) (payload : frame.payload = .data content)
    (accepted : ((self.moved state).receivedData ctx frame content).2 = .ok received)
    (ok : received.error = .noError) : Accepts self ctx frame received.stream received.ctx := by
  have kind : frame.kind = .data := by rw [Frame.kind, payload]
  have no_credit : credit frame = 0 := by rw [credit, payload]
  obtain ⟨id_odd, goes_on, state_eq⟩ := checked
  rw [receivedData] at accepted
  split at accepted
  · cases accepted
  simp only at accepted
  split at accepted
  · cases accepted
  next stream_done =>
  split at accepted
  · cases accepted
  next connection_done =>
  obtain ⟨_, -, rfl⟩ := openStreamWindow_eq_ok stream_done
  obtain ⟨_, -, rfl⟩ := openConnectionWindow_eq_ok connection_done
  simp only at accepted
  split at accepted
  · cases accepted
    cases ok
  · cases accepted
    constructor <;> simp_all [moved, accept, Connection.flowControlWindowValid,
      Connection.updateFlowReceiveWindow]

/-- What a stream has become when it has accepted a frame. -/
theorem receivedFrame_accepts (read : frame.IsRead)
    (accepted : (self.receivedFrame ctx frame).2 = .ok received) (ok : received.error = .noError) :
    Accepts self ctx frame received.stream received.ctx := by
  obtain ⟨id_odd, goes_on, state, state_eq, accepted⟩ := receivedFrame_checks accepted ok
  have checked : Checked self frame state := ⟨id_odd, goes_on, state_eq⟩
  cases payload : frame.payload with
  | unread kind => exact absurd payload (read kind)
  | priority priority =>
      simp only [receivedContent, payload, Except.ok.injEq] at accepted
      exact receivedPriority_accepts checked payload accepted ok
  | windowUpdate increment =>
      simp only [receivedContent, payload, Except.ok.injEq] at accepted
      exact receivedWindowUpdate_accepts checked payload accepted ok
  | headers content =>
      simp only [receivedContent, payload] at accepted
      exact receivedHeaders_accepts checked payload accepted ok
  | continuation content =>
      simp only [receivedContent, payload] at accepted
      exact receivedContinuation_accepts checked payload accepted ok
  | data content =>
      simp only [receivedContent, payload] at accepted
      exact receivedData_accepts checked payload accepted ok
  | rstStream _ | settings _ | pushPromise _ | ping _ | goAway _ =>
      simp only [receivedContent, payload, Except.ok.injEq] at accepted
      subst accepted
      exact accept_accepts checked (by simp [Frame.kind, payload])

end Accepted

/-- Parsing a header block depends on its octets and on the headers that there are already. -/
theorem parseHeaders_congr {self other : Stream} {ctx : Context} {result : Stream × Context}
    (octets : nextOctets other.hFrames = nextOctets self.hFrames)
    (headers : other.headers = self.headers) (parsed : self.parseHeaders ctx = .ok result) :
    ∃ result, other.parseHeaders ctx = .ok result := by
  cases delivered : nextOctets self.hFrames with
  | mk block_octets fault =>
      rw [delivered] at octets
      simp only [parseHeaders, delivered, octets, headers] at parsed ⊢
      obtain ⟨block, decoded, parsed⟩ := bind_eq_ok_iff.mp parsed
      rw [decoded, ok_bind]
      split at parsed
      · next absent => exact ⟨_, if_pos absent⟩
      · next present =>
          rw [if_neg present]
          split at parsed
          · cases parsed
          · next value converted =>
              split_ifs at parsed ⊢
              · exact ⟨_, rfl⟩
              · exact ⟨_, rfl⟩

end Stream

end Http2
end AdaWebServer

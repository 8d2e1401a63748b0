import AdaWebServer.Http2.WindowAccounting

/-!
# Accounting of the receive windows

A receive window should be what the server has announced, with the window updates sent and without
the payloads of the DATA frames received.  The server counts a padded frame without its padding,
and what does not fit in a window is not answered by a flow-control error.
-/

namespace AdaWebServer
namespace Http2

open Balance

/-! ## One frame -/

/-- The counted length of a DATA frame is that of its payload, or less for a padded frame. -/
theorem Frame.payloadLength_eq_ok {frame : Frame} {content : Octets} {length : Nat}
    (counted : frame.payloadLength content = .ok length) :
    length ≤ content.length ∧ (length = content.length ↔ frame.hasFlag paddedFlag = false) := by
  unfold payloadLength at counted
  split at counted
  · next padded =>
      obtain ⟨pad, -, counted⟩ := bind_eq_ok_iff.mp counted
      obtain ⟨padding, positive_padding, counted⟩ := bind_eq_ok_iff.mp counted
      obtain ⟨left, subtracted, counted⟩ := bind_eq_ok_iff.mp counted
      have padding_pos := positive_eq_ok positive_padding
      have left_eq := naturalSub_eq_ok subtracted
      have length_eq := (positive_eq_ok counted).1
      have short : length < content.length := by omega
      simp [padded, short.le, short.ne]
  · next unpadded =>
      simp [(positive_eq_ok counted).1, unpadded]

/-- The error code of a frame that ends a stream or a connection. -/
def Frame.errorCode (self : Frame) : Option Nat :=
  match self.payload with
  | .rstStream errorCode => some errorCode
  | .goAway content => some (bigEndian ((content.drop 4).take 4))
  | _ => none

@[simp]
theorem Frame.errorCode_createGoAway (streamId : StreamId) (error : ErrorCode)
    (code message : Text) :
    (Frame.createGoAway streamId error code message).errorCode = some error.pos := by
  have small : error.pos < 256 ^ 4 := by cases error <;> decide
  have dropped : (octetsOf 4 streamId ++ octetsOf 4 error.pos ++ text "AWS/" ++ code ++ text "/" ++
      message).drop 4 = octetsOf 4 error.pos ++ (text "AWS/" ++ code ++ text "/" ++ message) := by
    simp only [List.append_assoc]
    exact List.drop_left' (octetsOf_length 4 streamId)
  rw [errorCode, createGoAway]
  simp only [dropped, List.take_left' (octetsOf_length 4 error.pos),
    bigEndian_octetsOf_of_lt small]

/-- No DATA frame of the connection is valid. -/
theorem Frame.kind_ne_data_of_valid {frame : Frame} {settings : Connection} (read : frame.IsRead)
    (valid : frame.IsValid settings) (connection_frame : frame.streamId = 0) :
    frame.kind ≠ .data := by
  intro data
  cases payload : frame.payload with
  | data content => simp [IsValid, validate, payload, connection_frame] at valid
  | unread kind => exact read kind payload
  | _ => simp [Frame.kind, payload] at data

theorem Frame.Queued.kind_ne_windowUpdate {frame : Frame} (queued : frame.Queued) :
    frame.kind ≠ .windowUpdate := by
  rcases queued.origin with ⟨kind | kind | kind, -⟩ | ⟨kind | kind, -⟩ <;> simp [kind]

/-- The checks of a DATA frame find no flow-control error. -/
theorem Frame.validate_data_ne {frame : Frame} {settings : Connection} {error : ErrorCode}
    (data : frame.kind = .data) (validated : frame.validate settings = .ok error) :
    error ≠ .flowControlError := by
  have header : ∀ {kind length error}, validateHeader settings kind length = .ok error →
      error ≠ .flowControlError := by
    rintro kind length error checked rfl
    obtain ⟨limit, -, checked⟩ := bind_eq_ok_iff.mp checked
    split_ifs at checked <;> cases checked
  rintro rfl
  cases payload : frame.payload with
  | unread kind =>
      rw [validate, payload] at validated
      exact header validated rfl
  | data content =>
      rw [validate, payload] at validated
      simp only at validated
      split at validated
      · cases validated
      split at validated
      · obtain ⟨pad, -, validated⟩ := bind_eq_ok_iff.mp validated
        split at validated
        · cases validated
        · exact header validated rfl
      · exact header validated rfl
  | _ => simp [Frame.kind, payload] at data

namespace Stream

variable {self next : Stream} {ctx after : Context} {frame : Frame} {updates : List Frame}

private theorem parse_windows {complete : Bool}
    (parsed : (if complete then self.parseHeaders ctx else pure (self, ctx)) =
      Except.ok (next, after)) :
    next.flowReceiveWindow = self.flowReceiveWindow ∧
      after.settings.flowReceiveWindow = ctx.settings.flowReceiveWindow := by
  split at parsed
  · obtain ⟨-, ⟨_, _, _, rfl⟩, -, _, _, rfl⟩ := parseHeaders_eq_ok parsed
    exact ⟨rfl, rfl⟩
  · cases parsed
    exact ⟨rfl, rfl⟩

private theorem receivedHeaders_windows {content : Octets}
    (received : self.receivedHeaders ctx frame content = .ok ⟨next, after, .noError⟩) :
    next.flowReceiveWindow = self.flowReceiveWindow ∧
      after.settings.flowReceiveWindow = ctx.settings.flowReceiveWindow := by
  by_cases refused : ¬ frame.hasFlag endStreamFlag ∧ self.headerFound
  · rw [receivedHeaders, if_pos refused] at received
    cases received
  · rw [receivedHeaders_eq refused] at received
    obtain ⟨waiting, waiting_eq, received⟩ := bind_eq_ok_iff.mp received
    obtain ⟨⟨parsed, _⟩, parsed_eq, received⟩ := bind_eq_ok_iff.mp received
    cases received
    have same : waiting.flowReceiveWindow = self.flowReceiveWindow := by
      split at waiting_eq
      · cases priority_eq : frame.getPriority content <;> rw [priority_eq] at waiting_eq <;>
          cases waiting_eq
        rfl
      · cases waiting_eq
        rfl
    exact ⟨(parse_windows parsed_eq).1.trans same, (parse_windows parsed_eq).2⟩

private theorem receivedContinuation_windows
    (received : self.receivedContinuation ctx frame = .ok ⟨next, after, .noError⟩) :
    next.flowReceiveWindow = self.flowReceiveWindow ∧
      after.settings.flowReceiveWindow = ctx.settings.flowReceiveWindow := by
  by_cases started : self.hFrames = []
  · rw [receivedContinuation, if_pos started] at received
    cases received
  · rw [receivedContinuation_eq started] at received
    obtain ⟨⟨parsed, _⟩, parsed_eq, received⟩ := bind_eq_ok_iff.mp received
    cases received
    have windows := parse_windows parsed_eq
    exact windows

/-- An accepted frame other than DATA leaves the receive windows as they are. -/
theorem receivedFrame_still {state : StateKind} (checked : Checked self frame state)
    (other : frame.kind ≠ .data)
    (received : self.receivedFrame ctx frame = (updates, .ok ⟨next, after, .noError⟩)) :
    updates = [] ∧ next.flowReceiveWindow = self.flowReceiveWindow ∧
      after.settings.flowReceiveWindow = ctx.settings.flowReceiveWindow := by
  rw [receivedFrame_of_checked checked] at received
  cases payload : frame.payload with
  | data content => exact absurd (by rw [Frame.kind, payload]) other
  | headers content =>
      simp only [receivedContent, payload, Prod.mk.injEq] at received
      have windows := receivedHeaders_windows received.2
      exact ⟨received.1.symm, windows⟩
  | continuation content =>
      simp only [receivedContent, payload, Prod.mk.injEq] at received
      have windows := receivedContinuation_windows received.2
      exact ⟨received.1.symm, windows⟩
  | priority priority =>
      simp only [receivedContent, payload, Prod.mk.injEq, Except.ok.injEq, receivedPriority]
        at received
      obtain ⟨rfl, same⟩ := received
      split at same <;> cases same
      exact ⟨rfl, rfl, rfl⟩
  | windowUpdate increment =>
      simp only [receivedContent, payload, Prod.mk.injEq, Except.ok.injEq, receivedWindowUpdate]
        at received
      obtain ⟨rfl, same⟩ := received
      split_ifs at same <;> cases same
      exact ⟨rfl, rfl, rfl⟩
  | unread _ | rstStream _ | settings _ | pushPromise _ | ping _ | goAway _ =>
      simp only [receivedContent, payload, Prod.mk.injEq, Except.ok.injEq] at received
      obtain ⟨rfl, same⟩ := received
      cases same
      exact ⟨rfl, rfl, rfl⟩

/-- What an accepted frame does to the receive windows: the length that is counted for it is taken
from both, and each may be opened again. -/
structure Counted (self : Stream) (ctx : Context) (frame : Frame) (updates : List Frame)
    (next : Stream) (after : Context) (length : Nat) (first second : List Frame) : Prop where
  length_iff : length = frame.dataOctets ↔ (frame.kind = .data → frame.hasFlag paddedFlag = false)
  updates_eq : updates = first ++ second
  stream_opened : Opened self.id (self.flowReceiveWindow - length) first next.flowReceiveWindow
  connection_opened : Opened 0 (ctx.settings.flowReceiveWindow - length) second
    after.settings.flowReceiveWindow

private theorem counted_of_data {state : StateKind} {content : Octets}
    (checked : Checked self frame state) (payload : frame.payload = .data content)
    (received : self.receivedFrame ctx frame = (updates, .ok ⟨next, after, .noError⟩)) :
    ∃ length first second, Counted self ctx frame updates next after length first second := by
  rw [receivedFrame_of_checked checked] at received
  simp only [receivedContent, payload, receivedData] at received
  split at received
  · cases received
  next length counted =>
  split at received
  · cases received
  next stream_done =>
  split at received
  · cases received
  next connection_done =>
  obtain ⟨window, opened, rfl⟩ := openStreamWindow_eq_ok stream_done
  obtain ⟨connection_window, connection_opened, rfl⟩ :=
    openConnectionWindow_eq_ok connection_done
  simp only [Prod.mk.injEq] at received
  obtain ⟨rfl, received⟩ := received
  have length_iff : length = frame.dataOctets ↔
      (frame.kind = .data → frame.hasFlag paddedFlag = false) := by
    rw [Frame.dataOctets, Frame.kind, payload]
    simpa using (Frame.payloadLength_eq_ok counted).2
  split at received
  · cases received
  · cases received
    exact ⟨length, _, _, length_iff, rfl, opened, connection_opened⟩

/-- Only the frames with data are counted. -/
theorem counted_of_received {state : StateKind} (read : frame.IsRead)
    (checked : Checked self frame state)
    (received : self.receivedFrame ctx frame = (updates, .ok ⟨next, after, .noError⟩)) :
    ∃ length first second, Counted self ctx frame updates next after length first second := by
  by_cases data : frame.kind = .data
  · cases payload : frame.payload with
    | data content => exact counted_of_data checked payload received
    | unread kind => exact absurd payload (read kind)
    | _ => simp [Frame.kind, payload] at data
  · obtain ⟨rfl, stream_same, connection_same⟩ := receivedFrame_still checked data received
    refine ⟨0, [], [], ?_, rfl, ?_, ?_⟩
    · simp [Frame.dataOctets_of_kind data, data]
    · rw [stream_same, Int.ofNat_zero, sub_zero]
      exact .kept
    · rw [connection_same, Int.ofNat_zero, sub_zero]
      exact .kept

/-- A stream finds no flow-control error in a DATA frame. -/
theorem receivedFrame_data_ne {error : ErrorCode} (data : frame.kind = .data)
    (received : (self.receivedFrame ctx frame).2 = .ok ⟨next, after, error⟩) :
    error ≠ .flowControlError := by
  have state_ne : ∀ {stream : Stream} {info : ErrorDetails},
      stream.receiveState frame ≠ .error (.flowControlError, info) := by
    intro stream info failed
    cases before : stream.state <;> simp only [receiveState, before, data] at failed
    all_goals repeat' split at failed
    all_goals cases failed
  rintro rfl
  unfold receivedFrame at received
  simp only at received
  split at received
  · cases received
  split at received
  · next failed =>
      cases received
      exact state_ne failed
  split at received
  · cases received
  cases payload : frame.payload with
  | data content =>
      simp only [receivedContent, payload, receivedData] at received
      split at received
      · cases received
      split at received
      · cases received
      split at received
      · cases received
      · simp only [Except.ok.injEq] at received
        split at received <;> cases received
  | unread kind =>
      simp only [receivedContent, payload] at received
      cases received
  | _ => simp [Frame.kind, payload] at data

end Stream

/-! ## Balances -/

namespace Entry

/-- What an entry adds to the receive window of a stream, or to that of the connection, which stands
under the identifier 0 and is charged for every stream. -/
def receiveChange (id : StreamId) : Entry → Int
  | .received frame => if id = 0 ∨ frame.streamId = id then -frame.dataOctets else 0
  | .sent frame => if frame.streamId = id then Stream.credit frame else 0
  | _ => 0

/-- An entry changes no receive window and opens no stream. -/
structure Still (entry : Entry) : Prop where
  unchanged : ∀ id, entry.receiveChange id = 0
  opens_nothing : ∀ id, entry ≠ .opened id
  no_update : ∀ frame increment, entry = .sent frame → frame.payload ≠ .windowUpdate increment

theorem still_sent {frame : Frame} (other : frame.kind ≠ .windowUpdate) : Still (.sent frame) := by
  have no_update : ∀ increment, frame.payload ≠ .windowUpdate increment :=
    fun increment payload => other (by rw [Frame.kind, payload])
  have none : Stream.credit frame = 0 := by
    unfold Stream.credit
    split
    · next increment payload => exact absurd payload (no_update increment)
    · rfl
  refine ⟨fun id => by simp [receiveChange, none], (by rintro _ ⟨⟩), ?_⟩
  rintro sent increment ⟨⟩
  exact no_update increment

theorem still_received {frame : Frame} (other : frame.kind ≠ .data) : Still (.received frame) :=
  ⟨fun id => by simp [receiveChange, Frame.dataOctets_of_kind other], nofun, nofun⟩

theorem still_framed (frames : List Frame) : Still (.framed frames) :=
  ⟨fun _ => rfl, nofun, nofun⟩

end Entry

/-- What a receive window has gained and lost since its stream was opened. -/
def receiveBalance (id : StreamId) (trace : List Entry) : Int :=
  balance (Entry.receiveChange id) (Entry.opens id) trace

theorem receiveBalance_append_of_still {entries : List Entry}
    (still : ∀ entry ∈ entries, entry.Still) (id : StreamId) (trace : List Entry) :
    receiveBalance id (entries ++ trace) = receiveBalance id trace :=
  balance_append_of_quiet (fun entry member =>
    ⟨decide_eq_false ((still entry member).opens_nothing id), (still entry member).unchanged id⟩)
    trace

theorem receiveBalance_opened (id : StreamId) (trace : List Entry) :
    receiveBalance id (.opened id :: trace) = 0 :=
  balance_cons_of_starts (Entry.opens_iff.mpr rfl) trace

theorem receiveBalance_opened_of_ne {id opened : StreamId} (other : id ≠ opened)
    (trace : List Entry) : receiveBalance id (.opened opened :: trace) = receiveBalance id trace := by
  have different : (Entry.opened opened).opens id = false :=
    decide_eq_false fun same => other (Entry.opened.inj same).symm
  exact (balance_cons different trace).trans (zero_add _)

theorem receiveBalance_received (id : StreamId) (frame : Frame) (trace : List Entry) :
    receiveBalance id (.received frame :: trace) =
      (if id = 0 ∨ frame.streamId = id then -(frame.dataOctets : Int) else 0) +
        receiveBalance id trace :=
  balance_cons rfl trace

/-- The updates of a window bring its balance from its value before them to that after them. -/
theorem receiveBalance_updates {key : StreamId} {before after : Int} {updates : List Frame}
    (opened : Stream.Opened key before updates after) (id : StreamId) (trace : List Entry) :
    receiveBalance id ((updates.map Entry.sent).reverse ++ trace) =
      receiveBalance id trace + if id = key then after - before else 0 := by
  cases opened with
  | kept => simp
  | renewed nonneg low =>
      have raised : ((naturalLast - before.toNat : Nat) : Int) = naturalLast - before := by omega
      have change : (Entry.sent (Frame.createWindowUpdate key (naturalLast - before.toNat))).receiveChange
          id = if id = key then (naturalLast : Int) - before else 0 := by
        simp only [Entry.receiveChange, Frame.createWindowUpdate, Stream.credit, raised, eq_comm]
      rw [List.map_singleton, List.reverse_singleton, List.singleton_append]
      exact (balance_cons rfl trace).trans (by rw [change, add_comm]; rfl)

/-! ## Windows that are restored -/

/-- What the server has announced: for the connection (identifier 0) the size that is fixed for all,
for the streams that of its settings. -/
def announcedWindow (config : Config) (id : StreamId) : Nat :=
  if id = 0 then 65535 else config.initialWindowSize.val

/-- Every window update that was sent has restored its window to `2**31 - 1` by a lawful
increment. -/
def Restored (config : Config) : List Entry → Prop
  | [] => True
  | entry :: earlier =>
      (∀ frame increment, entry = .sent frame → frame.payload = .windowUpdate increment →
        1 ≤ increment ∧ increment ≤ 2 ^ 31 - 1 ∧
          announcedWindow config frame.streamId + receiveBalance frame.streamId (entry :: earlier) =
            2 ^ 31 - 1) ∧
      Restored config earlier

theorem restored_append_of_still {config : Config} {entries trace : List Entry}
    (still : ∀ entry ∈ entries, entry.Still) (restored : Restored config trace) :
    Restored config (entries ++ trace) := by
  induction entries with
  | nil => exact restored
  | cons entry entries ih =>
      refine ⟨fun frame increment sent payload => ?_,
        ih fun other member => still other (List.mem_cons_of_mem _ member)⟩
      exact absurd payload ((still entry List.mem_cons_self).no_update frame increment sent)

/-- The updates of a window restore it, when the window before them is what the trace says. -/
theorem restored_updates {config : Config} {key : StreamId} {before after : Int}
    {updates : List Frame} {trace : List Entry} (opened : Stream.Opened key before updates after)
    (counted : before = announcedWindow config key + receiveBalance key trace)
    (restored : Restored config trace) :
    Restored config ((updates.map Entry.sent).reverse ++ trace) := by
  cases opened with
  | kept => exact restored
  | renewed nonneg low =>
      rw [List.map_singleton, List.reverse_singleton, List.singleton_append]
      refine ⟨?_, restored⟩
      rintro frame increment ⟨⟩ payload
      cases payload
      have balanced : receiveBalance key
          (.sent (Frame.createWindowUpdate key (naturalLast - before.toNat)) :: trace) = _ :=
        receiveBalance_updates (.renewed nonneg low) key trace
      rw [if_pos rfl] at balanced
      have same : (Frame.createWindowUpdate key (naturalLast - before.toNat)).streamId = key := rfl
      rw [same, balanced]
      simp only [naturalLast] at low ⊢
      omega

namespace ProtocolHandler

open Resources Execution

variable {Resource : Type}

/-! ## The invariant -/

/-- The receive window of a stream, or that of the connection under the identifier 0. -/
def receiveWindow (self : ProtocolHandler Resource) (id : StreamId) : Option Int :=
  if id = 0 then some self.ctx.settings.flowReceiveWindow
  else (self.streams id).map Stream.flowReceiveWindow

/-- The receive windows are what the trace says. -/
def ReceiveAccounted (handler : ProtocolHandler Resource) : Prop :=
  ∀ id, ∀ window ∈ handler.receiveWindow id,
    window = announcedWindow handler.ctx.config id + receiveBalance id handler.trace

/-- Every receive window is between 0 and `2**31 - 1`. -/
def ReceiveInRange (handler : ProtocolHandler Resource) : Prop :=
  ∀ id, ∀ window ∈ handler.receiveWindow id, 0 ≤ window ∧ window ≤ 2 ^ 31 - 1

/-- A DATA frame has no padding, and fits in the window of its stream and in that of the
connection. -/
def Fits (self : ProtocolHandler Resource) (frame : Frame) : Prop :=
  frame.kind = .data → frame.hasFlag paddedFlag = false ∧
    ∀ id, id = 0 ∨ id = frame.streamId →
      ∀ window ∈ self.receiveWindow id, (frame.dataOctets : Int) ≤ window

/-- The DATA frame that is received, if it is one, fits. -/
def ReceivesFitting (self : ProtocolHandler Resource) : Event Resource → Prop
  | .receive _ _ =>
      match Frame.read self.ctx.settings self.input with
      | .error _ => True
      | .ok (frame, _) => self.Fits frame
  | _ => True

/-- The invariant of the runs: the accounting, the bounds of the windows, and soundness. -/
structure ReceiveLedger (handler : ProtocolHandler Resource) : Prop where
  sound : handler.Sound
  announced : handler.ctx.config.initialWindowSize.val = 65535
  accounted : handler.ReceiveAccounted
  in_range : handler.ReceiveInRange
  restored : Restored handler.ctx.config handler.trace

theorem announcedWindow_eq {config : Config} (announced : config.initialWindowSize.val = 65535)
    (id : StreamId) : announcedWindow config id = 65535 := by
  rw [announcedWindow, announced, ite_self]

/-! ## Steps -/

section Steps

variable {before after : ProtocolHandler Resource} {frame : Frame}

/-- The windows of the connection and of the streams that are still there have not changed. -/
private theorem receiveWindow_of_kept
    (connection : after.ctx.settings.flowReceiveWindow = before.ctx.settings.flowReceiveWindow)
    (streams : ∀ id stream, after.streams id = some stream → ∃ earlier,
      before.streams id = some earlier ∧ earlier.flowReceiveWindow = stream.flowReceiveWindow)
    {id : StreamId} {window : Int} (current : window ∈ after.receiveWindow id) :
    window ∈ before.receiveWindow id := by
  unfold receiveWindow at current ⊢
  split at current
  · next zero => rwa [if_pos zero, ← connection]
  · next nonzero =>
      rw [if_neg nonzero]
      obtain ⟨stream, found, rfl⟩ := Option.map_eq_some_iff.mp current
      obtain ⟨earlier, found, same⟩ := streams id stream found
      exact Option.map_eq_some_iff.mpr ⟨earlier, found, same⟩

/-- A step that changes no window and opens no stream preserves the ledger. -/
private theorem receiveLedger_of_still (entries : List Entry) (ledger : ReceiveLedger before)
    (sound : Sound after)
    (connection : after.ctx.settings.flowReceiveWindow = before.ctx.settings.flowReceiveWindow)
    (streams : ∀ id stream, after.streams id = some stream → ∃ earlier,
      before.streams id = some earlier ∧ earlier.flowReceiveWindow = stream.flowReceiveWindow)
    (config : after.ctx.config = before.ctx.config) (trace : after.trace = entries ++ before.trace)
    (still : ∀ entry ∈ entries, entry.Still) : ReceiveLedger after := by
  obtain ⟨-, announced, accounted, in_range, restored⟩ := ledger
  have windows : ∀ {id window}, window ∈ after.receiveWindow id →
      window ∈ before.receiveWindow id := receiveWindow_of_kept connection streams
  refine ⟨sound, config ▸ announced, fun id window current => ?_,
    fun id window current => in_range id window (windows current), ?_⟩
  · rw [config, trace, receiveBalance_append_of_still still]
    exact accounted id window (windows current)
  · rw [config, trace]
    exact restored_append_of_still still restored

/-- The receive windows of other streams, after a stream has been replaced. -/
theorem receiveWindow_update {streams : StreamId → Option Stream} {stream : Stream}
    {key id : StreamId} (streams_eq : after.streams = Function.update streams key (some stream)) :
    after.receiveWindow id =
      if id = 0 then some after.ctx.settings.flowReceiveWindow
      else if id = key then some stream.flowReceiveWindow
      else (streams id).map Stream.flowReceiveWindow := by
  rw [receiveWindow, streams_eq]
  split
  · rfl
  · split
    · next same => rw [same, Function.update_self, Option.map_some]
    · next other => rw [Function.update_of_ne other]

/-! ### Frames of a stream -/

section Served

variable {length : Nat} {id : StreamId}

/-- How a receive window that a frame is charged to has moved. -/
structure Charged (before after : ProtocolHandler Resource) (frame : Frame) (length : Nat)
    (id : StreamId) (earlier later : Int) (updates : List Frame) : Prop where
  window_eq : after.receiveWindow id = some later
  opened : Stream.Opened id (earlier - length) updates later
  known : earlier ∈ before.receiveWindow id ∨ (earlier = 65535 ∧ frame.dataOctets = 0)
  balance_eq : later =
    announcedWindow before.ctx.config id + receiveBalance id after.trace + frame.dataOctets - length

private theorem dataOctets_of_fresh {next : Stream} {ctx : Context} {size : Nat}
    (accepts : (Stream.create frame.streamId size).Accepts before.ctx frame next ctx) :
    frame.dataOctets = 0 := by
  refine Frame.dataOctets_of_kind fun data => ?_
  have state := accepts.state
  simp [Stream.receiveState, Stream.create, data] at state

/-- The window of the stream of an accepted frame, and the balances behind it. -/
private theorem receiveBalance_of_admits {stream next : Stream} {ctx : Context}
    {opened : List Entry} {streamOpened : Nat} {lastSid : StreamId} (ledger : ReceiveLedger before)
    (stream_frame : frame.streamId ≠ 0)
    (admits : Admits before frame stream opened streamOpened lastSid)
    (accepts : stream.Accepts before.ctx frame next ctx) :
    stream.flowReceiveWindow - frame.dataOctets = announcedWindow before.ctx.config frame.streamId +
        receiveBalance frame.streamId (opened ++ .received frame :: before.trace) ∧
      (stream.flowReceiveWindow ∈ before.receiveWindow frame.streamId ∨
        (stream.flowReceiveWindow = 65535 ∧ frame.dataOctets = 0)) ∧
      (∀ id, id ≠ frame.streamId →
        receiveBalance id (opened ++ .received frame :: before.trace) =
          receiveBalance id (.received frame :: before.trace)) ∧
      (Restored before.ctx.config (opened ++ .received frame :: before.trace)) := by
  have restored : Restored before.ctx.config (.received frame :: before.trace) :=
    ⟨nofun, ledger.restored⟩
  cases admits with
  | current found =>
      have window : stream.flowReceiveWindow ∈ before.receiveWindow frame.streamId := by
        rw [receiveWindow, if_neg stream_frame, found]
        rfl
      refine ⟨?_, .inl window, fun _ _ => rfl, restored⟩
      rw [List.nil_append, receiveBalance_received, if_pos (.inr rfl),
        ledger.accounted _ _ window]
      omega
  | fresh absent few ordered =>
      have empty := dataOctets_of_fresh accepts
      refine ⟨?_, .inr ⟨rfl, empty⟩, fun id other => receiveBalance_opened_of_ne other _,
        ⟨nofun, restored⟩⟩
      rw [List.singleton_append, receiveBalance_opened, announcedWindow_eq ledger.announced, empty]
      rfl

/-- An accepted frame is charged to the windows of the connection and of its stream. -/
private theorem charged_of_served {rest : Octets} (ledger : ReceiveLedger before)
    (read : frame.IsRead) (stream_frame : frame.streamId ≠ 0)
    (served : Served (before.take frame rest) frame after) :
    ∃ length, (length = frame.dataOctets ↔ (frame.kind = .data → frame.hasFlag paddedFlag = false)) ∧
      (∀ id, id = 0 ∨ id = frame.streamId →
        ∃ earlier later updates, Charged before after frame length id earlier later updates) ∧
      (∀ id, id ≠ 0 → id ≠ frame.streamId → after.receiveWindow id = before.receiveWindow id ∧
        receiveBalance id after.trace = receiveBalance id before.trace) ∧
      after.ctx.config = before.ctx.config ∧
      (length = frame.dataOctets → Restored before.ctx.config after.trace) := by
  cases served with
  | intro stream next ctx updates opened streamOpened lastSid keepAlive uploadState willClose
      messages admits stream_id received accepts few fresh =>
      have admits : Admits before frame stream opened streamOpened lastSid := by
        cases admits with
        | current found => exact .current found
        | fresh absent few ordered => exact .fresh absent few ordered
      obtain ⟨own, known, others, restored⟩ :=
        receiveBalance_of_admits ledger stream_frame admits accepts
      obtain ⟨length, first, second, length_iff, rfl, stream_opened, connection_opened⟩ :=
        Stream.counted_of_received read ⟨accepts.id_odd, accepts.block_goes_on, accepts.state⟩
          received
      rw [stream_id] at stream_opened
      let base := opened ++ .received frame :: before.trace
      have trace : (((first ++ second).map Entry.sent).reverse ++ opened) ++
          .received frame :: before.trace =
            (second.map Entry.sent).reverse ++ ((first.map Entry.sent).reverse ++ base) := by
        simp [base]
      have balanced : ∀ id, receiveBalance id ((second.map Entry.sent).reverse ++
          ((first.map Entry.sent).reverse ++ base)) = receiveBalance id base +
            (if id = frame.streamId then
              next.flowReceiveWindow - (stream.flowReceiveWindow - length) else 0) +
            if id = 0 then ctx.settings.flowReceiveWindow -
              (before.ctx.settings.flowReceiveWindow - length) else 0 := by
        intro id
        rw [receiveBalance_updates connection_opened, receiveBalance_updates stream_opened]
        rfl
      have connection : before.ctx.settings.flowReceiveWindow - frame.dataOctets =
          announcedWindow before.ctx.config 0 + receiveBalance 0 base := by
        rw [others 0 (Ne.symm stream_frame), receiveBalance_received, if_pos (.inl rfl),
          ledger.accounted 0 _ rfl]
        omega
      refine ⟨length, length_iff, ?_, fun id nonzero other => ⟨?_, ?_⟩, accepts.config, ?_⟩
      · rintro id (rfl | rfl)
        · refine ⟨before.ctx.settings.flowReceiveWindow, ctx.settings.flowReceiveWindow, second,
            rfl, connection_opened, .inl rfl, ?_⟩
          simp only [take, trace, balanced, if_neg (Ne.symm stream_frame), if_true]
          omega
        · refine ⟨stream.flowReceiveWindow, next.flowReceiveWindow, first, ?_, stream_opened, known,
            ?_⟩
          · rw [receiveWindow_update rfl, if_neg stream_frame, if_pos rfl]
          · simp only [take, trace, balanced, if_neg stream_frame, if_true, base]
            omega
      · rw [receiveWindow_update rfl, if_neg nonzero, if_neg other, receiveWindow, if_neg nonzero]
        rfl
      · simp only [take, trace, balanced, if_neg nonzero, if_neg other, base, others id other]
        rw [receiveBalance_received, if_neg (by tauto)]
        omega
      · rintro rfl
        simp only [take, trace]
        refine restored_updates connection_opened ?_ (restored_updates stream_opened own restored)
        rw [receiveBalance_updates stream_opened, if_neg (Ne.symm stream_frame), add_zero]
        exact connection

/-- A frame that fits keeps the ledger. -/
private theorem receiveLedger_of_served {rest : Octets} (ledger : ReceiveLedger before)
    (sound : Sound after) (read : frame.IsRead) (stream_frame : frame.streamId ≠ 0)
    (served : Served (before.take frame rest) frame after) (fits : before.Fits frame) :
    ReceiveLedger after := by
  obtain ⟨length, length_iff, charged, others, config, restored⟩ :=
    charged_of_served ledger read stream_frame served
  have whole : length = frame.dataOctets := length_iff.mpr fun data => (fits data).1
  have room : ∀ id, id = 0 ∨ id = frame.streamId → ∀ window ∈ before.receiveWindow id,
      (frame.dataOctets : Int) ≤ window := by
    intro id of_frame window current
    by_cases data : frame.kind = .data
    · exact (fits data).2 id of_frame window current
    · rw [Frame.dataOctets_of_kind data]
      exact (ledger.in_range id window current).1
  refine ⟨sound, config ▸ ledger.announced, fun id window current => ?_,
    fun id window current => ?_, config ▸ restored whole⟩
  · by_cases of_frame : id = 0 ∨ id = frame.streamId
    · obtain ⟨earlier, later, updates, window_eq, opened, known, balance_eq⟩ := charged id of_frame
      obtain rfl : later = window := Option.some.inj (window_eq.symm.trans current)
      rw [config]
      omega
    · obtain ⟨nonzero, other⟩ := not_or.mp of_frame
      obtain ⟨window_eq, balance_eq⟩ := others id nonzero other
      rw [config, balance_eq]
      exact ledger.accounted id window (window_eq ▸ current)
  · by_cases of_frame : id = 0 ∨ id = frame.streamId
    · obtain ⟨earlier, later, updates, window_eq, opened, known, balance_eq⟩ := charged id of_frame
      obtain rfl : later = window := Option.some.inj (window_eq.symm.trans current)
      have bounds : (frame.dataOctets : Int) ≤ earlier ∧ earlier ≤ 2 ^ 31 - 1 := by
        rcases known with current | ⟨rfl, empty⟩
        · exact ⟨room id of_frame earlier current, (ledger.in_range id earlier current).2⟩
        · rw [empty]
          decide
      cases opened with
      | kept => omega
      | renewed nonneg low => decide
    · obtain ⟨nonzero, other⟩ := not_or.mp of_frame
      exact ledger.in_range id window ((others id nonzero other).1 ▸ current)

/-- An accepted frame that leaves the windows accounted and in their range fits. -/
private theorem fits_of_served {rest : Octets} (ledger : ReceiveLedger before)
    (read : frame.IsRead) (stream_frame : frame.streamId ≠ 0)
    (served : Served (before.take frame rest) frame after) (accounted : ReceiveAccounted after)
    (in_range : ReceiveInRange after) : before.Fits frame := by
  obtain ⟨length, length_iff, charged, -, config, -⟩ :=
    charged_of_served ledger read stream_frame served
  have whole : length = frame.dataOctets := by
    obtain ⟨earlier, later, updates, window_eq, -, -, balance_eq⟩ := charged 0 (.inl rfl)
    have later_eq := accounted 0 later window_eq
    rw [config] at later_eq
    omega
  refine fun data => ⟨length_iff.mp whole data, fun id of_frame window current => ?_⟩
  obtain ⟨earlier, later, updates, window_eq, opened, known, -⟩ := charged id of_frame
  have nonneg := (in_range id later window_eq).1
  rcases known with same | ⟨-, empty⟩
  · obtain rfl : window = earlier := Option.some.inj (current.symm.trans same)
    cases opened with
    | kept => omega
    | renewed nonneg low => omega
  · rw [empty]
    exact (ledger.in_range id window current).1

end Served

/-! ### All steps -/

theorem receiveLedger_create {config : Config} {stack : Nat} {errorBody : Text}
    (announced : config.initialWindowSize.val = 65535) :
    ReceiveLedger (create config stack errorBody : ProtocolHandler Resource) := by
  have window : (create config stack errorBody : ProtocolHandler Resource).ctx.settings.flowReceiveWindow
      = 65535 := by
    rw [create, Context.create, Connection.configured_eq]
    rfl
  have only : ∀ {id window'},
      window' ∈ (create config stack errorBody : ProtocolHandler Resource).receiveWindow id →
        window' = 65535 := by
    intro id other current
    rw [receiveWindow, window] at current
    split at current
    · exact (Option.some.inj current).symm
    · cases current
  refine ⟨sound_create, announced, fun id other current => ?_, fun id other current => ?_, trivial⟩
  · have config_eq : (create config stack errorBody : ProtocolHandler Resource).ctx.config = config :=
      rfl
    rw [only current, config_eq, announcedWindow_eq announced]
    rfl
  · rw [only current]
    decide

/-- Only the window of the connection, and that of the stream of an upgrade, are there before the
first frames. -/
private theorem receiveLedger_of_upgrade {settings : Connection} {values : SettingsSet}
    {stream : Stream} {frames : List Frame} (ledger : ReceiveLedger before) (sound : Sound after)
    (phase : before.phase = .start) (recorded : before.ctx.settings.set values = .ok settings)
    (settings_eq : after.ctx.settings = settings) (config : after.ctx.config = before.ctx.config)
    (streams : after.streams = Function.update before.streams 1 (some stream))
    (window : stream.flowReceiveWindow = 65535)
    (trace : after.trace = .framed frames :: .opened 1 ::
      .sent (.createSettings (toSet before.ctx.config) false) :: before.trace) :
    ReceiveLedger after := by
  have announces : Entry.Still (.sent (.createSettings (toSet before.ctx.config) false)) :=
    Entry.still_sent (by simp [Frame.kind, Frame.createSettings])
  have only : ∀ {id current}, current ∈ after.receiveWindow id →
      (id = 0 ∧ current ∈ before.receiveWindow 0) ∨ (id = 1 ∧ current = 65535) := by
    intro id current found
    rw [receiveWindow_update streams] at found
    split_ifs at found with zero one
    · refine .inl ⟨zero, ?_⟩
      rwa [settings_eq, (Connection.set_windows recorded).2] at found
    · exact .inr ⟨one, (Option.some.inj found).symm.trans window⟩
    · rw [(ledger.sound.fresh phase).1] at found
      cases found
  refine ⟨sound, config ▸ ledger.announced, fun id current found => ?_,
    fun id current found => ?_, ?_⟩
  · rw [config, trace]
    rcases only found with ⟨rfl, earlier⟩ | ⟨rfl, rfl⟩
    · have quiet : receiveBalance 0 (.framed frames :: .opened 1 ::
          .sent (.createSettings (toSet before.ctx.config) false) :: before.trace) =
            receiveBalance 0 before.trace := by
        rw [← List.singleton_append, receiveBalance_append_of_still
          (by simpa using Entry.still_framed frames), receiveBalance_opened_of_ne (by decide),
          ← List.singleton_append, receiveBalance_append_of_still (by simpa using announces)]
      rw [quiet]
      exact ledger.accounted 0 current earlier
    · have quiet : receiveBalance 1 (.framed frames :: .opened 1 ::
          .sent (.createSettings (toSet before.ctx.config) false) :: before.trace) = 0 := by
        rw [← List.singleton_append, receiveBalance_append_of_still
          (by simpa using Entry.still_framed frames), receiveBalance_opened]
      rw [quiet, announcedWindow_eq ledger.announced]
      rfl
  · rcases only found with ⟨-, earlier⟩ | ⟨-, rfl⟩
    · exact ledger.in_range 0 current earlier
    · decide
  · rw [config, trace]
    exact ⟨(by rintro _ _ ⟨⟩), (by rintro _ _ ⟨⟩), restored_append_of_still
      (show ∀ entry ∈ [_], Entry.Still entry by simpa using announces) ledger.restored⟩

/-- A frame of the connection changes no receive window. -/
private theorem receiveLedger_of_control {controlled : Controlled} (ledger : ReceiveLedger before)
    (sound : Sound after) (other : frame.kind ≠ .data)
    (done : before.ctx.settings.handleControlFrame frame before.answers = .ok controlled)
    (streams : after.streams = addFlowControl before.streams controlled.addFlowControl)
    (ctx : after.ctx = { before.ctx with settings := controlled.settings })
    (trace : after.trace = .received frame :: before.trace) : ReceiveLedger after := by
  have connection : controlled.settings.flowReceiveWindow =
      before.ctx.settings.flowReceiveWindow := by
    cases Connection.controlEffect done with
    | recorded values payload fresh recorded answered change accepted =>
        exact (Connection.set_windows recorded).2
    | credited increment payload valid same =>
        rw [same]
        rfl
    | ponged _ same | acknowledged _ _ same | overflowed _ _ _ same | ignored _ _ same => rw [same]
  refine receiveLedger_of_still [.received frame] ledger sound (by rw [ctx, connection])
    (fun id stream current => ?_) (by rw [ctx]) trace (by simpa using Entry.still_received other)
  rw [streams] at current
  obtain ⟨earlier, found, rfl⟩ := addFlowControl_id current
  refine ⟨earlier, found, ?_⟩
  split <;> rfl

variable [StreamType Resource] {event : Event Resource}

theorem receiveLedger_of_step (ledger : ReceiveLedger before) (fits : before.ReceivesFitting event)
    (step : Step before event after) : ReceiveLedger after := by
  have sound : Sound after := sound_of_step ledger.sound step
  have unchanged : ∀ id stream, before.streams id = some stream → ∃ earlier,
      before.streams id = some earlier ∧ earlier.flowReceiveWindow = stream.flowReceiveWindow :=
    fun id stream found => ⟨_, found, rfl⟩
  cases step with
  | connected frame values settings octets input phase opened read payload recorded =>
      refine receiveLedger_of_still
        [.sent (.createSettings (toSet before.ctx.config) false), .received frame] ledger sound
        (Connection.set_windows recorded).2 unchanged rfl rfl ?_
      rintro entry (_ | ⟨_, _ | ⟨_, ⟨⟩⟩⟩)
      · exact Entry.still_sent (by simp [Frame.kind, Frame.createSettings])
      · exact Entry.still_received (by simp [Frame.kind, payload])
  | upgraded settings response frames message tabEnc input phase opened recorded framed =>
      exact receiveLedger_of_upgrade ledger sound phase recorded rfl rfl rfl rfl rfl
  | arrived octets =>
      exact receiveLedger_of_still [] ledger sound rfl unchanged rfl rfl
        (by simp)
  | waited phase =>
      exact receiveLedger_of_still [] ledger sound rfl unchanged rfl rfl
        (by simp)
  | framed message rest others stream frames tabEnc phase deferred current allowed framed counted =>
      exact receiveLedger_of_still [.framed frames] ledger sound
        rfl unchanged rfl rfl (by simpa using Entry.still_framed frames)
  | wroteControl frame answers phase quiet waiting connection_frame =>
      have other := (ledger.sound.queued frame (by simp [waiting])).kind_ne_windowUpdate
      exact receiveLedger_of_still [.sent frame] ledger sound rfl unchanged
        rfl rfl (by simpa using Entry.still_sent other)
  | wroteStream frame answers stream next phase quiet waiting stream_frame current allowed sent =>
      have other := (ledger.sound.queued frame (by simp [waiting])).kind_ne_windowUpdate
      have sent_eq := Stream.sendFrame_eq_ok sent
      have next_id : next.id = frame.streamId := sent_eq.1.trans (ledger.sound.stream_id current).1
      refine receiveLedger_of_still [.sent frame] ledger sound
        (by rw [charged]; split <;> rfl) (fun id other_stream found => ?_) rfl rfl
        (by simpa using Entry.still_sent other)
      simp only [next_id] at found
      by_cases same : id = frame.streamId
      · subst same
        split at found
        · rw [Function.update_self] at found
          cases found
        · rw [Function.update_self] at found
          cases found
          exact ⟨stream, current, sent_eq.2.2.2.2.1.symm⟩
      · refine unchanged _ _ ?_
        split at found
        · rwa [Function.update_of_ne same, Function.update_of_ne same] at found
        · rwa [Function.update_of_ne same] at found
  | received frame rest after phase read handled =>
      rw [ReceivesFitting, read] at fits
      cases handled with
      | ignored unknown =>
          refine receiveLedger_of_still [.sent pingAnswer, .received frame] ledger sound
            rfl unchanged rfl rfl ?_
          rintro entry (_ | ⟨_, _ | ⟨_, ⟨⟩⟩⟩)
          · exact Entry.still_sent (by decide)
          · refine Entry.still_received ?_
            rcases unknown with ⟨payload, -⟩ | payload <;> simp [Frame.kind, payload]
      | control controlled valid defined connection_frame done accepted =>
          exact receiveLedger_of_control ledger sound
            (Frame.kind_ne_data_of_valid (Frame.isRead_of_valid read valid) valid connection_frame)
            done rfl rfl rfl
      | stream admitted responded stream next ctx updates valid defined stream_frame admits
          received responds =>
          exact receiveLedger_of_served ledger sound (Frame.isRead_of_valid read valid) stream_frame
            (served_of_handled ledger.sound.stream_id read valid admits received responds) fits
  | parked phase idle quiet =>
      exact receiveLedger_of_still [] ledger sound rfl unchanged rfl rfl
        (by simp)
  | resumed phase =>
      exact receiveLedger_of_still [] ledger sound rfl (fun _ _ => (by rintro ⟨⟩)) rfl rfl (by simp)

/-- A step that leaves the windows accounted and in their range has received a frame that fits. -/
theorem receivesFitting_of_step (ledger : ReceiveLedger before) (step : Step before event after)
    (accounted : ReceiveAccounted after) (in_range : ReceiveInRange after) :
    before.ReceivesFitting event := by
  cases step with
  | received frame rest after phase read handled =>
      rw [ReceivesFitting, read]
      cases handled with
      | ignored unknown =>
          intro data
          rcases unknown with ⟨payload, -⟩ | payload <;> simp [Frame.kind, payload] at data
      | control controlled valid defined connection_frame done accepted =>
          exact fun data => absurd data (Frame.kind_ne_data_of_valid
            (Frame.isRead_of_valid read valid) valid connection_frame)
      | stream admitted responded stream next ctx updates valid defined stream_frame admits
          received responds =>
          exact fits_of_served ledger (Frame.isRead_of_valid read valid) stream_frame
            (served_of_handled ledger.sound.stream_id read valid admits received responds) accounted
            in_range
  | _ => trivial

end Steps

/-! ## Signals -/

section Signals

variable {before after : ProtocolHandler Resource} {frame : Frame}
  {answer : Except Exn (Response Resource)} {crowded : Bool}

/-- The entry is a frame that has been sent with an error code. -/
def Signals (error : ErrorCode) : Entry → Prop
  | .sent frame => frame.errorCode = some error.pos
  | _ => False

/-- What is not signalled. -/
def Silent (error : ErrorCode) (entry : Entry) : Prop := ¬ Signals error entry

private theorem adds_goAway_of_ne {error other : ErrorCode} (different : other ≠ error) :
    Adds (Silent error) before (before.goAway other) := by
  refine .single rfl ?_
  simp only [Silent, Signals, Frame.errorCode_createGoAway, Option.some.injEq]
  intro same
  exact different (ErrorCode.pos_injective same)

private theorem adds_raised_of_exn (exn : Exn) :
    Adds (Silent .flowControlError) before (before.raised exn) := by
  cases exn with
  | socketError => exact .of_eq rfl
  | protocolError message => exact .of_eq rfl
  | refused code message =>
      exact .single rfl (by simp [Silent, Signals, ErrorCode.pos])
  | constraintError => exact .single rfl (by simp [Silent, Signals, ErrorCode.pos])
  | storageError => exact .single rfl (by simp [Silent, Signals, ErrorCode.pos])
  | userException => exact .single rfl (by simp [Silent, Signals, ErrorCode.pos])

private theorem silent_receiveControl (data : frame.kind = .data) :
    Adds (Silent .flowControlError) before (before.receiveControl frame) := by
  unfold receiveControl
  split
  · exact adds_raised_of_exn _
  · next controlled done =>
      cases Connection.controlEffect done with
      | ignored quiet other same =>
          subst same
          exact .of_eq rfl
      | ponged kind | acknowledged kind => rw [data] at kind; cases kind
      | recorded _ payload | credited _ payload | overflowed _ payload =>
          simp [Frame.kind, payload] at data

private theorem silent_receiveStream (data : frame.kind = .data) :
    Adds (Silent .flowControlError) before (before.receiveStream frame answer crowded) := by
  unfold receiveStream
  simp only
  split
  · exact (Adds.of_eq rfl).trans (adds_goAway_of_ne (by decide))
  · next admitted stream admits =>
      have created : Adds (Silent .flowControlError) before admitted := by
        rcases admission_eq_some admits with ⟨-, rfl⟩ | ⟨-, -, -, -, rfl⟩
        · exact .of_eq rfl
        · exact .single rfl id
      have updated : Adds (Silent .flowControlError) admitted
          (admitted.sendAll (stream.receivedFrame admitted.ctx frame).1) := by
        refine ⟨_, rfl, fun entry member => ?_⟩
        obtain ⟨update, sent, rfl⟩ := List.mem_map.mp (List.mem_reverse.mp member)
        have kind := Stream.receivedFrame_updates update sent
        cases payload : update.payload <;> simp [Frame.kind, payload] at kind
        all_goals simp [Silent, Signals, Frame.errorCode, payload]
      refine (created.trans updated).trans ?_
      unfold received
      split
      · exact adds_raised_of_exn _
      · next next ctx error received =>
          have error_ne := Stream.receivedFrame_data_ne data received
          simp only [if_neg error_ne]
          split
          · exact (Adds.of_eq rfl).trans (adds_goAway_of_ne error_ne)
          · exact (Adds.of_eq rfl).trans (adds_respond adds_raised_of_exn (by simp [setStream]))

theorem silent_of_data (data : frame.kind = .data) :
    Adds (Silent .flowControlError) before (before.dispatch frame answer crowded) := by
  unfold dispatch
  split
  · next payload => simp [Frame.kind, payload] at data
  · next payload => simp [Frame.kind, payload] at data
  · next payload => simp [Frame.kind, payload] at data
  · split
    · exact adds_goAway_of_ne (by decide)
    split
    · exact adds_goAway_of_ne (by decide)
    split
    · exact adds_raised_of_exn _
    next error validated =>
    split
    · exact adds_goAway_of_ne (Frame.validate_data_ne data validated)
    split
    · exact .of_eq rfl
    split
    · exact silent_receiveControl data
    · exact silent_receiveStream data

end Signals

/-! ## Runs -/

section Runs

variable [StreamType Resource] {config : Config} {stack : Nat} {errorBody : Text}
  {events : List (Event Resource)} {before : ProtocolHandler Resource}

/-- When the announced size is the default one, and as long as every DATA frame is without padding
and fits, each receive window is what the trace says and between 0 and `2**31 - 1`, and each window
update restores it; a step keeps this exactly when the frame that it receives fits; and no DATA frame
is ever answered by a flow-control error. -/
theorem receive_windows_of_run (announced : config.initialWindowSize.val = 65535)
    (run : Run (Guarded ReceivesFitting (Computes next)) (create config stack errorBody) events
      before)
    (going_on : before.phase ≠ .closed) :
    ReceiveAccounted before ∧ ReceiveInRange before ∧ Restored before.ctx.config before.trace ∧
      (∀ event after, before.next event = .ok after → after.phase ≠ .closed →
        (ReceiveAccounted after ∧ ReceiveInRange after ↔ before.ReceivesFitting event)) ∧
      ∀ answer crowded after frame rest,
        Frame.read before.ctx.settings before.input = .ok (frame, rest) → frame.kind = .data →
        before.next (.receive answer crowded) = .ok after →
          Adds (Silent .flowControlError) before after := by
  have ledger : ReceiveLedger before :=
    invariant_of_run ReceiveLedger (receiveLedger_create announced)
      (fun ledger fits step => receiveLedger_of_step ledger fits step) run going_on
  refine ⟨ledger.accounted, ledger.in_range, ledger.restored, fun event after stepped open_ => ?_,
    fun answer crowded after frame rest read data stepped => ?_⟩
  · have step := step_of_next stepped open_
    refine ⟨fun ⟨accounted, in_range⟩ => receivesFitting_of_step ledger step accounted in_range,
      fun fits => ?_⟩
    have later := receiveLedger_of_step ledger fits step
    exact ⟨later.accounted, later.in_range⟩
  · rw [dispatch_of_next read stepped]
    exact (Adds.single rfl id).trans (silent_of_data data)

end Runs

/-! ## Padded data -/

/-- Five octets of data. -/
def greetingData : WireFrame := ⟨0, 0, false, 1, text "Hello", WireFrame.first_lt, by decide⟩

/-- Two octets of data with three octets of padding. -/
def paddedData : WireFrame :=
  ⟨0, 0x08, false, 1, [3] ++ text "He" ++ [0, 0, 0], WireFrame.first_lt, by decide⟩

/-- A request is received, and data of its body. -/
def receivedBody (data : WireFrame) : List (Event DiskStream) :=
  [.arrive (WireFrame.emptySettings.octets ++ uploadRequest.octets ++ data.octets), .connect false,
    .turn, .receive (.error .constraintError) false, .turn,
    .receive (.error .constraintError) false]

/-- Data without padding fits. -/
private def FitsPlainly (self : ProtocolHandler DiskStream) : Event DiskStream → Bool
  | .receive _ _ =>
      match Frame.read self.ctx.settings self.input with
      | .error _ => true
      | .ok (frame, _) => frame.kind = .data → frame.hasFlag paddedFlag = false ∧
          (frame.dataOctets : Int) ≤ self.ctx.settings.flowReceiveWindow ∧
          ∀ stream ∈ self.streams frame.streamId, (frame.dataOctets : Int) ≤ stream.flowReceiveWindow
  | _ => true

private theorem receivesFitting_of_plainly {self : ProtocolHandler DiskStream}
    {event : Event DiskStream} (plainly : self.FitsPlainly event = true) :
    self.ReceivesFitting event := by
  unfold FitsPlainly at plainly
  unfold ReceivesFitting
  split
  · split
    · trivial
    · next read =>
        rw [read] at plainly
        intro data
        obtain ⟨unpadded, connection, stream⟩ := of_decide_eq_true plainly data
        refine ⟨unpadded, fun id of_frame window current => ?_⟩
        unfold receiveWindow at current
        split at current
        · cases current
          exact connection
        · next nonzero =>
            obtain rfl := of_frame.resolve_left nonzero
            obtain ⟨found, found_eq, rfl⟩ := Option.map_eq_some_iff.mp current
            exact stream found found_eq
  · trivial

/-- Five octets of data are taken from both windows. -/
theorem receive_windows_greeting : ∃ state : ProtocolHandler DiskStream,
    Run (Guarded ReceivesFitting (Computes next)) (create .default 65536 [])
      (receivedBody greetingData) state ∧
    state.receiveWindow 1 = some 65530 ∧ ReceiveAccounted state := by
  obtain ⟨state, run, going_on, window⟩ : ∃ state : ProtocolHandler DiskStream,
      Run (Guarded (fun state event => state.FitsPlainly event = true) (Computes next))
        (create .default 65536 []) (receivedBody greetingData) state ∧
      (state.phase ≠ .closed ∧ state.receiveWindow 1 = some 65530) :=
    exists_run_of_follow (by decide +kernel)
  have guarded : Run (Guarded ReceivesFitting (Computes next)) (create .default 65536 [])
      (receivedBody greetingData) state :=
    run.mono fun step => ⟨receivesFitting_of_plainly step.1, step.2⟩
  exact ⟨state, guarded, window, (receive_windows_of_run (by decide) guarded going_on).1⟩

/-- Of a padded frame with six octets of payload, two are taken from the windows. -/
theorem padding_not_counted : ∃ state : ProtocolHandler DiskStream,
    Run (Computes next) (create .default 65536 []) (receivedBody paddedData) state ∧
    state.phase = .head ∧ state.receiveWindow 1 = some 65533 ∧ receiveBalance 1 state.trace = -6 ∧
    ¬ ReceiveAccounted state := by
  obtain ⟨state, run, phase, config, window, balance⟩ : ∃ state : ProtocolHandler DiskStream,
      Run (Guarded (fun _ _ => True) (Computes next)) (create .default 65536 [])
        (receivedBody paddedData) state ∧
      (state.phase = .head ∧ announcedWindow state.ctx.config 1 = 65535 ∧
        state.receiveWindow 1 = some 65533 ∧ receiveBalance 1 state.trace = -6) :=
    exists_run_of_follow (by decide +kernel)
  refine ⟨state, run.of_guarded, phase, window, balance, fun accounted => ?_⟩
  have window_eq := accounted 1 65533 window
  rw [config, balance] at window_eq
  exact absurd window_eq (by decide)

end ProtocolHandler

end Http2
end AdaWebServer

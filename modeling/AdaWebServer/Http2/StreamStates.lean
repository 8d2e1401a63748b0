import AdaWebServer.Foundations.Execution
import AdaWebServer.Http2.AcceptedFrame

/-!
# Stream states

A stream should leave the open state when the peer has ended it: with END_STREAM on a DATA frame or
on a header block that is complete, or with RST_STREAM.  It should not matter how a header block is
split over frames.
-/

namespace AdaWebServer
namespace Http2

open Execution

/-! ## Runs of a stream -/

/-- A frame that has been received or sent on a stream. -/
inductive Traffic where
  | received (frame : Frame)
  | sent (frame : Frame)
  deriving DecidableEq

/-- A stream with its traffic, the newest frame first. -/
structure StreamRecord where
  stream : Stream
  ctx : Context
  history : List Traffic

namespace StreamRecord

/-- A new stream. -/
def create (identifier : StreamId) (windowSize : Nat) (ctx : Context) : StreamRecord where
  stream := .create identifier windowSize
  ctx := ctx
  history := []

/-- One more frame; there is no next state when it is refused. -/
def next (self : StreamRecord) (traffic : Traffic) : Except Unit StreamRecord :=
  match traffic with
  | .received frame =>
      match (self.stream.receivedFrame self.ctx frame).2 with
      | .ok ⟨stream, ctx, .noError⟩ =>
          if frame.IsRead then .ok ⟨stream, ctx, traffic :: self.history⟩ else .error ()
      | _ => .error ()
  | .sent frame =>
      match self.stream.sendFrame frame with
      | .ok stream => .ok ⟨stream, self.ctx, traffic :: self.history⟩
      | .error _ => .error ()

end StreamRecord

/-- The frame has END_STREAM, which is a flag of DATA and HEADERS frames. -/
def Frame.EndsStream (self : Frame) : Prop :=
  (self.kind = .data ∨ self.kind = .headers) ∧ self.hasFlag endStreamFlag

/-- The peer has ended the stream, or one of the two parties has reset it. -/
def Ended (history : List Traffic) : Prop :=
  (∃ frame, (.received frame ∈ history ∨ .sent frame ∈ history) ∧ frame.kind = .rstStream) ∨
  ∃ newer frame older, history = newer ++ .received frame :: older ∧ frame.EndsStream ∧
    (frame.kind = .headers → frame.hasFlag endHeadersFlag ∨
      ∃ last, .received last ∈ newer ∧ last.kind = .continuation ∧ last.hasFlag endHeadersFlag)

/-- In the open state: END_HEADERS arrives on a CONTINUATION frame only when the header block has
END_STREAM, END_STREAM arrives on a HEADERS frame only with END_HEADERS, and the frames that do not
have END_STREAM leave its bit unset. -/
def Orderly (state : StreamRecord) : Traffic → Prop
  | .received frame => state.stream.state = .opened →
      (frame.kind = .continuation → frame.hasFlag endHeadersFlag → state.stream.endStream) ∧
      (frame.kind = .headers → frame.hasFlag endStreamFlag → frame.hasFlag endHeadersFlag) ∧
      (frame.hasFlag endStreamFlag →
        frame.kind = .data ∨ frame.kind = .headers ∨ frame.kind = .continuation ∨
          frame.kind = .rstStream)
  | .sent _ => True

instance : ∀ state traffic, Decidable (Orderly state traffic)
  | _, .received _ => inferInstanceAs (Decidable (_ → _))
  | _, .sent _ => inferInstanceAs (Decidable True)

/-! ## The end of a stream -/

section Runs

variable {before after : StreamRecord} {traffic : Traffic}

theorem next_received {frame : Frame} (stepped : before.next (.received frame) = .ok after) :
    Stream.Accepts before.stream before.ctx frame after.stream after.ctx ∧
      after.history = .received frame :: before.history := by
  simp only [StreamRecord.next] at stepped
  split at stepped
  · next stream ctx accepted =>
      split at stepped
      · next read =>
          cases stepped
          exact ⟨Stream.receivedFrame_accepts read accepted rfl, rfl⟩
      · cases stepped
  · cases stepped

theorem next_sent {frame : Frame} (stepped : before.next (.sent frame) = .ok after) :
    before.stream.sendState frame = .ok after.stream.state ∧
      after.stream.endStream = before.stream.endStream ∧
      after.history = .sent frame :: before.history := by
  simp only [StreamRecord.next, Stream.sendFrame] at stepped
  cases moved : before.stream.sendState frame with
  | error exn => simp [moved] at stepped
  | ok state =>
      rw [moved, ok_bind] at stepped
      split at stepped
      · next stream sent =>
          cases stepped
          split at sent <;> cases sent <;> exact ⟨rfl, rfl, rfl⟩
      · cases stepped

/-- END_STREAM has been on a HEADERS frame. -/
def HeadersEnded (state : StreamRecord) : Prop :=
  state.stream.endStream → ∃ newer frame older,
    state.history = newer ++ .received frame :: older ∧ frame.kind = .headers ∧
      frame.hasFlag endStreamFlag

theorem headersEnded_next (ended : HeadersEnded before) (stepped : before.next traffic = .ok after) :
    HeadersEnded after := by
  have older : before.stream.endStream → after.history = traffic :: before.history →
      ∃ newer frame older, after.history = newer ++ .received frame :: older ∧
        frame.kind = .headers ∧ frame.hasFlag endStreamFlag := by
    intro earlier grown
    obtain ⟨newer, frame, older, history, last⟩ := ended earlier
    exact ⟨traffic :: newer, frame, older, by rw [grown, history]; rfl, last⟩
  intro now
  cases traffic with
  | received frame =>
      obtain ⟨accepts, grown⟩ := next_received stepped
      rw [accepts.endStream, Bool.or_eq_true, Bool.and_eq_true, decide_eq_true_iff] at now
      rcases now with earlier | ⟨headers, ends⟩
      · exact older earlier grown
      · exact ⟨[], frame, before.history, grown, headers, ends⟩
  | sent frame =>
      obtain ⟨-, same, grown⟩ := next_sent stepped
      exact older (same ▸ now) grown

/-- A frame that takes an open stream to one of the states without a peer. -/
theorem receiveState_left {stream : Stream} {frame : Frame} {state : StateKind}
    (opened : stream.state = .opened) (received : stream.receiveState frame = .ok state)
    (left : state = .halfClosedRemote ∨ state = .closed) :
    frame.kind = .rstStream ∨ (frame.kind = .continuation ∧ frame.hasFlag endHeadersFlag) ∨
      (frame.kind ≠ .rstStream ∧ frame.kind ≠ .continuation ∧ frame.hasFlag endStreamFlag) := by
  simp only [Stream.receiveState, opened] at received
  split at received
  · next rst => exact .inl rst
  · next continuation =>
      split at received
      · next complete => exact .inr (.inl ⟨continuation, complete⟩)
      · cases received
        simp at left
  · next no_rst no_continuation =>
      split at received
      · next ends => exact .inr (.inr ⟨no_rst, no_continuation, ends⟩)
      · cases received
        simp at left

/-- A step that takes the stream out of the open state completes what ends it. -/
theorem ended_of_left (ended : HeadersEnded before) (orderly : Orderly before traffic)
    (stepped : before.next traffic = .ok after) (opened : before.stream.state = .opened)
    (left : after.stream.state = .halfClosedRemote ∨ after.stream.state = .closed) :
    Ended after.history := by
  cases traffic with
  | received frame =>
      obtain ⟨accepts, grown⟩ := next_received stepped
      obtain ⟨complete_block, whole_block, flagged⟩ := orderly opened
      rw [Ended, grown]
      rcases receiveState_left opened accepts.state left with rst | ⟨continuation, complete⟩ |
        ⟨no_rst, no_continuation, ends⟩
      · exact .inl ⟨frame, .inl List.mem_cons_self, rst⟩
      · -- the block that is complete now has END_STREAM on its HEADERS frame
        obtain ⟨newer, first, older, history, headers, ends⟩ :=
          ended (complete_block continuation complete)
        exact .inr ⟨.received frame :: newer, first, older, by rw [history]; rfl,
          ⟨.inr headers, ends⟩, fun _ => .inr ⟨frame, List.mem_cons_self, continuation, complete⟩⟩
      · refine .inr ⟨[], frame, before.history, rfl, ⟨?_, ends⟩, fun headers =>
          .inl (whole_block headers ends)⟩
        rcases flagged ends with data | headers | continuation | rst
        · exact .inl data
        · exact .inr headers
        · exact absurd continuation no_continuation
        · exact absurd rst no_rst
  | sent frame =>
      obtain ⟨moved, -, grown⟩ := next_sent stepped
      simp only [Stream.sendState, opened] at moved
      rw [Ended, grown]
      split at moved
      · next rst => exact .inl ⟨frame, .inr List.mem_cons_self, rst⟩
      · split at moved <;> rw [← Except.ok.inj moved] at left <;> simp at left
      · split at moved <;> rw [← Except.ok.inj moved] at left <;> simp at left

end Runs

/-! ## Split header blocks -/

/-- The part of a header block in a frame. -/
def Frame.blockPart (self : Frame) : Octets :=
  match self.contentLength with
  | .ok length => self.fragment length
  | .error _ => []

theorem Frame.fragment_length {frame : Frame} {length : Nat}
    (content_length : frame.contentLength = .ok length) :
    (frame.fragment length).length = length := by
  unfold Frame.contentLength at content_length
  cases payload : frame.payload with
  | headers content =>
      simp only [payload] at content_length
      split at content_length
      · cases content_length
      · obtain ⟨pad, -, subtracted⟩ : ∃ pad, True ∧
            naturalSub content.length (frame.getHeadersOffset + pad) = .ok length := by
          split at content_length
          · obtain ⟨pad, -, subtracted⟩ := bind_eq_ok_iff.mp content_length
            exact ⟨pad, trivial, subtracted⟩
          · exact ⟨0, trivial, content_length⟩
        unfold naturalSub at subtracted
        split at subtracted
        · cases subtracted
          rw [Frame.fragment, payload, List.length_take, List.length_drop]
          omega
        · cases subtracted
  | continuation content =>
      simp only [payload] at content_length
      split at content_length
      · cases content_length
      · cases content_length
        rw [Frame.fragment, payload, List.length_take, Nat.min_self]
  | unread _ | data _ | priority _ | rstStream _ | settings _ | pushPromise _ | ping _ | goAway _
  | windowUpdate _ => simp [payload] at content_length

theorem Frame.headers_payload {frame : Frame} (kind : frame.kind = .headers)
    (read : frame.IsRead) : ∃ content, frame.payload = .headers content := by
  unfold Frame.kind at kind
  split at kind
  case h_1 unread payload => exact absurd payload (read unread)
  case h_3 content payload => exact ⟨content, payload⟩
  all_goals cases kind

theorem Frame.continuation_payload {frame : Frame} (kind : frame.kind = .continuation)
    (read : frame.IsRead) : ∃ content, frame.payload = .continuation content := by
  unfold Frame.kind at kind
  split at kind
  case h_1 unread payload => exact absurd payload (read unread)
  case h_11 content payload => exact ⟨content, payload⟩
  all_goals cases kind

/-- A header block in one frame, and the same block split over a HEADERS frame and CONTINUATION
frames, the last of which is given apart. -/
structure SplitOf (whole head : Frame) (middle : List Frame) (last : Frame) : Prop where
  whole_kind : whole.kind = .headers
  whole_read : whole.IsRead
  whole_complete : whole.hasFlag endHeadersFlag
  head_kind : head.kind = .headers
  head_read : head.IsRead
  head_incomplete : ¬ head.hasFlag endHeadersFlag
  middle_kind : ∀ frame ∈ middle, frame.kind = .continuation ∧ frame.IsRead
  middle_incomplete : ∀ frame ∈ middle, ¬ frame.hasFlag endHeadersFlag
  last_kind : last.kind = .continuation
  last_read : last.IsRead
  last_complete : last.hasFlag endHeadersFlag
  ends : whole.hasFlag endStreamFlag = head.hasFlag endStreamFlag
  priority : whole.hasFlag priorityFlag = head.hasFlag priorityFlag ∧
    ∀ whole_content head_content, head.hasFlag priorityFlag →
      whole.payload = .headers whole_content → head.payload = .headers head_content →
      whole.getPriority whole_content = head.getPriority head_content
  block : whole.blockPart = (head :: middle ++ [last]).flatMap Frame.blockPart

/-- A stream is between two header blocks, before the headers of a request or its trailers. -/
structure BetweenBlocks (stream : Stream) : Prop where
  id_odd : stream.id % 2 = 1
  no_block : stream.hFrames = []
  position : (stream.state = .idle ∧ stream.headerFound = false) ∨
    ((stream.state = .opened ∨ stream.state = .halfClosedLocal) ∧ stream.headerFound = true)

namespace Stream

/-- Frames are accepted one after the other. -/
def acceptAll : Stream → Context → List Frame → Option (Stream × Context)
  | self, ctx, [] => some (self, ctx)
  | self, ctx, frame :: frames =>
      match (self.receivedFrame ctx frame).2 with
      | .ok ⟨self, ctx, .noError⟩ => acceptAll self ctx frames
      | _ => none

section Split

variable {stream next : Stream} {ctx after : Context} {frame : Frame} {frames : List Frame}

theorem acceptAll_cons_iff {final : Stream × Context} :
    stream.acceptAll ctx (frame :: frames) = some final ↔
      ∃ next after, (stream.receivedFrame ctx frame).2 = .ok ⟨next, after, .noError⟩ ∧
        next.acceptAll after frames = some final := by
  rw [acceptAll]
  constructor
  · intro accepted
    split at accepted
    · next next after received => exact ⟨next, after, received, accepted⟩
    · cases accepted
  · rintro ⟨next, after, received, accepted⟩
    rw [received]
    exact accepted

theorem nextOctets_of_nonempty (nonempty : ∀ frame ∈ frames, frame.blockPart ≠ []) :
    nextOctets frames = (frames.flatMap Frame.blockPart, none) := by
  induction frames with
  | nil => rfl
  | cons frame frames ih =>
      obtain ⟨first, others⟩ := List.forall_mem_cons.mp nonempty
      rw [nextOctets, List.flatMap_cons, ih others]
      unfold Frame.blockPart at first ⊢
      cases content_length : frame.contentLength with
      | error exn => simp [content_length] at first
      | ok length =>
          cases length with
          | zero =>
              rw [content_length] at first
              exact absurd (List.length_eq_zero_iff.mp (Frame.fragment_length content_length)) first
          | succ length => rfl

theorem nonempty_of_nextOctets (delivered : (nextOctets frames).2 = none) :
    ∀ frame ∈ frames, frame.blockPart ≠ [] := by
  induction frames with
  | nil => simp
  | cons frame frames ih =>
      rw [nextOctets] at delivered
      rw [List.forall_mem_cons, Frame.blockPart]
      cases content_length : frame.contentLength with
      | error exn => simp [content_length] at delivered
      | ok length =>
          cases length with
          | zero => simp [content_length] at delivered
          | succ length =>
              rw [content_length] at delivered
              refine ⟨List.length_pos_iff.mp ?_, ih delivered⟩
              rw [Frame.fragment_length content_length]
              exact Nat.succ_pos length

/-- CONTINUATION frames close the open state when the last one arrives. -/
theorem continued_state {middle : List Frame} {last : Frame}
    (opened : stream.state = .opened)
    (middle_kind : ∀ frame ∈ middle, frame.kind = .continuation ∧ frame.IsRead)
    (middle_incomplete : ∀ frame ∈ middle, ¬ frame.hasFlag endHeadersFlag)
    (last_kind : last.kind = .continuation) (last_read : last.IsRead)
    (last_complete : last.hasFlag endHeadersFlag)
    (accepted : stream.acceptAll ctx (middle ++ [last]) = some (next, after)) :
    next.state = .halfClosedRemote ∧
      (nextOctets (stream.hFrames ++ middle ++ [last])).2 = none := by
  induction middle generalizing stream ctx with
  | nil =>
      obtain ⟨_, _, received, done⟩ := acceptAll_cons_iff.mp accepted
      cases done
      have accepts := receivedFrame_accepts last_read received rfl
      have moved := accepts.state
      simp only [receiveState, opened, last_kind, last_complete, if_true] at moved
      exact ⟨(Except.ok.inj moved).symm,
        by simpa using accepts.block_sound (.inr last_kind) last_complete⟩
  | cons frame middle ih =>
      obtain ⟨first_after, ctx_after, received, rest⟩ := acceptAll_cons_iff.mp accepted
      obtain ⟨kind, read⟩ := middle_kind frame List.mem_cons_self
      have incomplete := middle_incomplete frame List.mem_cons_self
      have accepts := receivedFrame_accepts read received rfl
      have moved := accepts.state
      simp only [receiveState, opened, kind, incomplete] at moved
      have queue : first_after.hFrames = stream.hFrames ++ [frame] := by
        rw [accepts.hFrames, if_pos (.inr kind), if_neg incomplete]
      have result := ih (Except.ok.inj moved).symm
        (fun other member => middle_kind other (List.mem_cons_of_mem frame member))
        (fun other member => middle_incomplete other (List.mem_cons_of_mem frame member)) rest
      rw [queue] at result
      simpa using result

variable (ctx) in
/-- A CONTINUATION frame is queued behind the block. -/
theorem continued_step (opened : stream.state = .opened) (id_odd : stream.id % 2 = 1)
    (started : stream.hFrames ≠ []) (kind : frame.kind = .continuation) (read : frame.IsRead)
    (incomplete : ¬ frame.hasFlag endHeadersFlag) :
    ∃ next, (stream.receivedFrame ctx frame).2 = .ok ⟨next, ctx, .noError⟩ ∧
      next.state = .opened ∧ next.id = stream.id ∧ next.headers = stream.headers ∧
      next.hFrames = stream.hFrames ++ [frame] := by
  obtain ⟨content, payload⟩ := Frame.continuation_payload kind read
  have checked : Checked stream frame .opened :=
    ⟨.inr id_odd, fun _ => kind, by simp [receiveState, opened, kind, incomplete]⟩
  rw [receivedFrame_of_checked checked, receivedContent, payload]
  simp only
  rw [receivedContinuation_eq (show (stream.moved .opened).hFrames ≠ [] from started),
    if_neg incomplete, pure_eq_ok, ok_bind]
  exact ⟨_, rfl, rfl, rfl, rfl, rfl⟩

/-- The last CONTINUATION frame is accepted when the block can be parsed. -/
theorem continued_end {result : Stream × Context} {whole : Stream} (opened : stream.state = .opened)
    (id_odd : stream.id % 2 = 1) (started : stream.hFrames ≠ []) (kind : frame.kind = .continuation)
    (read : frame.IsRead) (complete : frame.hasFlag endHeadersFlag)
    (parsed : whole.parseHeaders ctx = .ok result) (headers : stream.headers = whole.headers)
    (octets : nextOctets (stream.hFrames ++ [frame]) = nextOctets whole.hFrames) :
    ∃ next after, (stream.receivedFrame ctx frame).2 = .ok ⟨next, after, .noError⟩ := by
  obtain ⟨content, payload⟩ := Frame.continuation_payload kind read
  have checked : Checked stream frame .halfClosedRemote :=
    ⟨.inr id_odd, fun _ => kind, by simp [receiveState, opened, kind, complete]⟩
  have queued : ∃ result, { stream.moved .halfClosedRemote with
      hFrames := stream.hFrames ++ [frame] }.parseHeaders ctx = .ok result :=
    parseHeaders_congr octets headers parsed
  obtain ⟨⟨next, after⟩, same⟩ := queued
  rw [receivedFrame_of_checked checked, receivedContent, payload]
  simp only
  rw [receivedContinuation_eq (show (stream.moved .halfClosedRemote).hFrames ≠ [] from started),
    if_pos complete]
  exact ⟨_, _, bind_eq_ok_iff.mpr ⟨_, same, rfl⟩⟩

/-- CONTINUATION frames are accepted when the block can be parsed. -/
theorem continued_accepted {result : Stream × Context} {whole : Stream} {middle : List Frame}
    {last : Frame} (opened : stream.state = .opened) (id_odd : stream.id % 2 = 1)
    (started : stream.hFrames ≠ [])
    (middle_kind : ∀ frame ∈ middle, frame.kind = .continuation ∧ frame.IsRead)
    (middle_incomplete : ∀ frame ∈ middle, ¬ frame.hasFlag endHeadersFlag)
    (last_kind : last.kind = .continuation) (last_read : last.IsRead)
    (last_complete : last.hasFlag endHeadersFlag)
    (parsed : whole.parseHeaders ctx = .ok result) (headers : stream.headers = whole.headers)
    (octets : nextOctets (stream.hFrames ++ middle ++ [last]) = nextOctets whole.hFrames) :
    ∃ final, stream.acceptAll ctx (middle ++ [last]) = some final := by
  induction middle generalizing stream with
  | nil =>
      obtain ⟨next, after, received⟩ := continued_end opened id_odd started last_kind last_read
        last_complete parsed headers (by simpa using octets)
      exact ⟨(next, after), acceptAll_cons_iff.mpr ⟨next, after, received, rfl⟩⟩
  | cons frame middle ih =>
      obtain ⟨kind, read⟩ := middle_kind frame List.mem_cons_self
      obtain ⟨next, received, state, id, same_headers, queue⟩ := continued_step ctx opened id_odd
        started kind read (middle_incomplete frame List.mem_cons_self)
      obtain ⟨final, rest⟩ := ih state (by rw [id]; exact id_odd)
        (by rw [queue]; simp)
        (fun other member => middle_kind other (List.mem_cons_of_mem frame member))
        (fun other member => middle_incomplete other (List.mem_cons_of_mem frame member))
        (same_headers.trans headers) (by rw [queue]; simpa using octets)
      exact ⟨final, acceptAll_cons_iff.mpr ⟨next, ctx, received, rest⟩⟩

end Split

section Law

variable {stream : Stream} {ctx : Context} {whole head : Frame} {middle : List Frame} {last : Frame}

/-- The header block of a request has END_STREAM and no empty part. -/
def Mergeable (stream : Stream) (head : Frame) (rest : List Frame) : Prop :=
  stream.state = .idle ∧ head.hasFlag endStreamFlag ∧
    ∀ frame ∈ head :: rest, frame.blockPart ≠ []

/-- The split block leads to the state that the whole block leads to. -/
def SameState (stream : Stream) (ctx : Context) (whole head : Frame) (rest : List Frame) : Prop :=
  (stream.acceptAll ctx (head :: rest)).map (fun final => final.1.state) =
    (stream.acceptAll ctx [whole]).map fun final => final.1.state

theorem mergeable_of_sameState (between : BetweenBlocks stream)
    (split : SplitOf whole head middle last) {final other : Stream × Context}
    (accepted : stream.acceptAll ctx [whole] = some final)
    (split_accepted : stream.acceptAll ctx (head :: (middle ++ [last])) = some other)
    (same : other.1.state = final.1.state) : Mergeable stream head (middle ++ [last]) := by
  obtain ⟨next, after, received, rest⟩ := acceptAll_cons_iff.mp split_accepted
  obtain ⟨whole_next, whole_after, whole_received, done⟩ := acceptAll_cons_iff.mp accepted
  cases done
  have accepts := receivedFrame_accepts split.head_read received rfl
  have whole_accepts := receivedFrame_accepts split.whole_read whole_received rfl
  have moved := accepts.state
  have whole_moved := whole_accepts.state
  have head_incomplete := split.head_incomplete
  have whole_complete := split.whole_complete
  have ends := split.ends
  have queue : next.hFrames = [head] := by
    rw [accepts.hFrames, if_pos (.inl split.head_kind), if_neg head_incomplete, between.no_block]
    rfl
  rcases between.position with ⟨idle, -⟩ | ⟨position, found⟩
  · simp only [receiveState, idle, split.head_kind, head_incomplete, Bool.false_eq_true, and_false,
      if_false] at moved
    obtain ⟨closed, delivered⟩ := continued_state (Except.ok.inj moved).symm split.middle_kind
      split.middle_incomplete split.last_kind split.last_read split.last_complete rest
    rw [queue] at delivered
    simp only [receiveState, idle, split.whole_kind, whole_complete, and_true] at whole_moved
    rw [closed] at same
    rw [← same] at whole_moved
    refine ⟨idle, ?_, nonempty_of_nextOctets (by simpa using delivered)⟩
    by_contra missing
    rw [← ends] at missing
    simp [missing] at whole_moved
  · -- trailers close the stream on their HEADERS frame, and the next frame is refused
    have head_ends := accepts.trailers_end split.head_kind found
    have refused : next.state = .halfClosedRemote ∨ next.state = .closed := by
      rcases position with opened | half
      · simp only [receiveState, opened, split.head_kind, head_ends, if_true] at moved
        exact .inl (Except.ok.inj moved).symm
      · simp only [receiveState, half, split.head_kind, head_ends, if_true] at moved
        split at moved
        · cases moved
        · exact .inr (Except.ok.inj moved).symm
    obtain ⟨first, kind, read, others, shape⟩ : ∃ first, first.kind = .continuation ∧
        first.IsRead ∧ ∃ others, middle ++ [last] = first :: others := by
      cases middle with
      | nil => exact ⟨last, split.last_kind, split.last_read, [], rfl⟩
      | cons first others =>
          obtain ⟨kind, read⟩ := split.middle_kind first List.mem_cons_self
          exact ⟨first, kind, read, others ++ [last], rfl⟩
    rw [shape] at rest
    obtain ⟨_, _, first_received, -⟩ := acceptAll_cons_iff.mp rest
    have first_moved := (receivedFrame_accepts read first_received rfl).state
    rcases refused with half | closed
    · simp [receiveState, half, kind] at first_moved
    · simp [receiveState, closed, kind] at first_moved

/-- What parses the block of the whole frame. -/
theorem whole_parsed (between : BetweenBlocks stream) (kind : whole.kind = .headers)
    (read : whole.IsRead) (complete : whole.hasFlag endHeadersFlag) {final : Stream × Context}
    (accepted : stream.acceptAll ctx [whole] = some final) :
    ∃ (content : Octets) (parser : Stream) (result : Stream × Context),
      whole.payload = .headers content ∧
      (whole.hasFlag priorityFlag → ∃ priority, whole.getPriority content = .ok priority) ∧
      parser.hFrames = [whole] ∧ parser.headers = stream.headers ∧
      parser.parseHeaders ctx = .ok result := by
  obtain ⟨_, _, received, -⟩ := acceptAll_cons_iff.mp accepted
  obtain ⟨content, payload⟩ := Frame.headers_payload kind read
  obtain ⟨id_odd, goes_on, state, state_eq, received⟩ := receivedFrame_checks received rfl
  simp only [receivedContent, payload] at received
  by_cases refused : ¬ whole.hasFlag endStreamFlag ∧ (stream.moved state).headerFound
  · rw [receivedHeaders, if_pos refused] at received
    cases received
  · rw [receivedHeaders_eq refused] at received
    simp only [complete, if_true] at received
    obtain ⟨parser, parser_eq, received⟩ := bind_eq_ok_iff.mp received
    obtain ⟨result, parsed, -⟩ := bind_eq_ok_iff.mp received
    refine ⟨content, parser, result, payload, fun prioritised => ?_, ?_, ?_, parsed⟩
    · rw [if_pos prioritised] at parser_eq
      cases priority_eq : whole.getPriority content with
      | error exn => rw [priority_eq] at parser_eq; cases parser_eq
      | ok priority => exact ⟨priority, rfl⟩
    all_goals
      split at parser_eq
      · cases priority_eq : whole.getPriority content with
        | error exn => rw [priority_eq] at parser_eq; cases parser_eq
        | ok priority =>
            rw [priority_eq] at parser_eq
            cases parser_eq
            simp [handlePriority, queued, moved, between.no_block]
      · cases parser_eq
        simp [queued, moved, between.no_block]

variable (ctx) in
/-- The first frame of a block of a request that has END_STREAM opens the stream. -/
theorem head_accepted (between : BetweenBlocks stream) (idle : stream.state = .idle)
    (kind : head.kind = .headers) (incomplete : ¬ head.hasFlag endHeadersFlag)
    (ends : head.hasFlag endStreamFlag) {content : Octets}
    (payload : head.payload = .headers content)
    (priority : head.hasFlag priorityFlag → ∃ priority, head.getPriority content = .ok priority) :
    ∃ next, (stream.receivedFrame ctx head).2 = .ok ⟨next, ctx, .noError⟩ ∧
      next.state = .opened ∧ next.id = stream.id ∧ next.headers = stream.headers ∧
      next.hFrames = [head] := by
  have checked : Checked stream head .opened :=
    ⟨.inr between.id_odd, by simp [between.no_block],
      by simp [receiveState, idle, kind, incomplete]⟩
  rw [receivedFrame_of_checked checked, receivedContent, payload]
  simp only
  rw [receivedHeaders_eq (by simp [ends])]
  simp only [incomplete, Bool.false_eq_true, if_false, pure_eq_ok]
  by_cases prioritised : head.hasFlag priorityFlag
  · obtain ⟨priority, priority_eq⟩ := priority prioritised
    rw [if_pos prioritised, priority_eq]
    exact ⟨_, rfl, rfl, rfl, rfl, by simp [handlePriority, queued, moved, between.no_block]⟩
  · rw [if_neg prioritised]
    exact ⟨_, rfl, rfl, rfl, rfl, by simp [queued, moved, between.no_block]⟩

theorem sameState_of_mergeable (between : BetweenBlocks stream)
    (split : SplitOf whole head middle last) {final : Stream × Context}
    (accepted : stream.acceptAll ctx [whole] = some final)
    (mergeable : Mergeable stream head (middle ++ [last])) :
    ∃ other, stream.acceptAll ctx (head :: (middle ++ [last])) = some other ∧
      other.1.state = final.1.state := by
  obtain ⟨idle, ends, nonempty⟩ := mergeable
  obtain ⟨content, parser, result, payload, priority, parser_queue, headers, parsed⟩ :=
    whole_parsed between split.whole_kind split.whole_read split.whole_complete accepted
  obtain ⟨head_content, head_payload⟩ := Frame.headers_payload split.head_kind split.head_read
  obtain ⟨same_flag, same_priority⟩ := split.priority
  have whole_nonempty : ∀ frame ∈ [whole], frame.blockPart ≠ [] := by
    rw [← parser_queue]
    exact nonempty_of_nextOctets (parseHeaders_eq_ok parsed).octets
  have octets : nextOctets (head :: (middle ++ [last])) = nextOctets parser.hFrames := by
    rw [parser_queue, nextOctets_of_nonempty nonempty, nextOctets_of_nonempty whole_nonempty]
    simpa using split.block.symm
  obtain ⟨next, received, opened, id, next_headers, queue⟩ := head_accepted ctx between idle
    split.head_kind split.head_incomplete ends head_payload (fun prioritised => by
      obtain ⟨priority, priority_eq⟩ := priority (same_flag ▸ prioritised)
      exact ⟨priority, same_priority _ _ prioritised payload head_payload ▸ priority_eq⟩)
  obtain ⟨other, rest⟩ := continued_accepted opened (by rw [id]; exact between.id_odd)
    (by rw [queue]; simp) split.middle_kind split.middle_incomplete split.last_kind split.last_read
    split.last_complete parsed (next_headers.trans headers.symm)
    (by rw [queue]; simpa using octets)
  refine ⟨other, acceptAll_cons_iff.mpr ⟨next, ctx, received, rest⟩, ?_⟩
  obtain ⟨closed, -⟩ := continued_state opened split.middle_kind split.middle_incomplete
    split.last_kind split.last_read split.last_complete rest
  obtain ⟨_, _, whole_received, done⟩ := acceptAll_cons_iff.mp accepted
  cases done
  have whole_moved := (receivedFrame_accepts split.whole_read whole_received rfl).state
  have whole_ends : whole.hasFlag endStreamFlag := split.ends ▸ ends
  simp only [receiveState, idle, split.whole_kind, split.whole_complete, whole_ends, and_self,
    if_true] at whole_moved
  rw [closed]
  exact Except.ok.inj whole_moved

/-- A split header block leads to the state of the whole block exactly when it is the block of a
request, has END_STREAM and has no empty part. -/
theorem sameState_iff (between : BetweenBlocks stream) (split : SplitOf whole head middle last)
    {final : Stream × Context} (accepted : stream.acceptAll ctx [whole] = some final) :
    SameState stream ctx whole head (middle ++ [last]) ↔
      Mergeable stream head (middle ++ [last]) := by
  rw [SameState, accepted, Option.map_some, Option.map_eq_some_iff]
  constructor
  · rintro ⟨other, split_accepted, same⟩
    exact mergeable_of_sameState between split accepted split_accepted same
  · exact sameState_of_mergeable between split accepted

end Law

end Stream

/-! ## The law -/

/-- In a run whose frames are orderly a stream leaves the open state only when it has been ended or
reset; and a split header block leads to the state of the whole block exactly when it is the block
of a request, has END_STREAM and has no empty part. -/
theorem states_lawful (identifier : StreamId) (windowSize : Nat) (ctx : Context) :
    (∀ {events : List Traffic} {before after : StreamRecord} {traffic : Traffic},
      Run (Guarded Orderly (Computes StreamRecord.next)) (.create identifier windowSize ctx) events
        before →
      Guarded Orderly (Computes StreamRecord.next) before traffic after →
      before.stream.state = .opened →
      (after.stream.state = .halfClosedRemote ∨ after.stream.state = .closed) →
      Ended after.history) ∧
    (∀ {stream : Stream} {whole head last : Frame} {middle : List Frame} {final : Stream × Context},
      BetweenBlocks stream → SplitOf whole head middle last →
      stream.acceptAll ctx [whole] = some final →
      (stream.SameState ctx whole head (middle ++ [last]) ↔
        stream.Mergeable head (middle ++ [last]))) := by
  constructor
  · intro events before after traffic run step opened left
    have ended : HeadersEnded before :=
      run.invariant HeadersEnded (fun ends => by cases ends) fun ended step =>
        headersEnded_next ended step.2
    exact ended_of_left ended step.1 step.2 opened left
  · intro stream whole head last middle final between split accepted
    exact Stream.sameState_iff between split accepted

/-! ## A request in one frame and in two -/

/-- A HEADERS frame with the given flags and fragment. -/
def headersFrame (flags : Octet) (fragment : Octets) : Frame :=
  ⟨fragment.length, flags, 1, .headers fragment⟩

/-- A CONTINUATION frame that ends a header block. -/
def continuationFrame (fragment : Octets) : Frame :=
  ⟨fragment.length, endHeadersFlag, 1, .continuation fragment⟩

/-- A new stream of a connection with the values of `AWS.Default`. -/
def newStream : StreamRecord := .create 1 65535 (.create .default (2 ^ 20))

/-- An open stream that has received the headers of its request. -/
def openStream : Stream := { newStream.stream with
  state := .opened
  headerFound := true }

private theorem splitOf_pair (flags : Octet) (ends : flags = 0 ∨ flags = endStreamFlag) :
    SplitOf (headersFrame (flags ||| endHeadersFlag) [0x82, 0x86]) (headersFrame flags [0x82]) []
      (continuationFrame [0x86]) := by
  rcases ends with rfl | rfl <;> exact {
    whole_kind := rfl
    whole_read := fun kind => by simp [headersFrame]
    whole_complete := by decide
    head_kind := rfl
    head_read := fun kind => by simp [headersFrame]
    head_incomplete := by decide
    middle_kind := by simp
    middle_incomplete := by simp
    last_kind := rfl
    last_read := fun kind => by simp [continuationFrame]
    last_complete := by decide
    ends := by decide
    priority := ⟨by decide, fun _ _ prioritised => absurd prioritised (by decide)⟩
    block := by decide }

private theorem between_new : BetweenBlocks newStream.stream := ⟨rfl, rfl, .inl ⟨rfl, rfl⟩⟩

private theorem between_open : BetweenBlocks openStream := ⟨rfl, rfl, .inr ⟨.inl rfl, rfl⟩⟩

/-- A request with a body, and a split request without one. -/
theorem states_lawful_request :
    (∃ before after : StreamRecord,
      before.next (.received (.createData 1 [72] true)) = .ok after ∧ Ended after.history) ∧
    newStream.stream.SameState newStream.ctx (headersFrame 0x05 [0x82, 0x86])
      (headersFrame 0x01 [0x82]) [continuationFrame [0x86]] := by
  constructor
  · obtain ⟨before, after, requested, orderly, stepped, opened, closed⟩ : ∃ before after,
        follow Orderly StreamRecord.next newStream
          [.received (headersFrame 0x04 [0x82, 0x86])] = some before ∧
        Orderly before (.received (.createData 1 [72] true)) ∧
        before.next (.received (.createData 1 [72] true)) = .ok after ∧
        before.stream.state = .opened ∧ after.stream.state = .halfClosedRemote := by
      exact ⟨_, _, rfl, by decide +kernel, rfl, rfl, rfl⟩
    exact ⟨before, after, stepped, (states_lawful 1 65535 (.create .default (2 ^ 20))).1
      (run_of_follow requested) ⟨orderly, stepped⟩ opened (.inl closed)⟩
  · have accepted : (newStream.stream.acceptAll newStream.ctx
        [headersFrame 0x05 [0x82, 0x86]]).isSome := by decide +kernel
    obtain ⟨final, accepted⟩ := Option.isSome_iff_exists.mp accepted
    exact ((states_lawful 1 65535 newStream.ctx).2 between_new (splitOf_pair endStreamFlag (.inr rfl)) accepted).mpr
      ⟨rfl, by decide, by decide⟩

/-- The CONTINUATION frame that completes the headers of a request closes the stream for its body,
and split trailers are refused. -/
theorem split_block_misread :
    (∃ before after : StreamRecord,
      Run (Computes StreamRecord.next) newStream [.received (headersFrame 0 [0x82])] before ∧
      before.next (.received (continuationFrame [0x86])) = .ok after ∧
      before.stream.state = .opened ∧ after.stream.state = .halfClosedRemote ∧
      ¬Ended after.history) ∧
    (BetweenBlocks openStream ∧
      SplitOf (headersFrame 0x05 [0x82, 0x86]) (headersFrame 0x01 [0x82]) []
        (continuationFrame [0x86]) ∧
      (openStream.acceptAll newStream.ctx [headersFrame 0x05 [0x82, 0x86]]).isSome ∧
      ¬openStream.SameState newStream.ctx (headersFrame 0x05 [0x82, 0x86])
        (headersFrame 0x01 [0x82]) [continuationFrame [0x86]]) := by
  constructor
  · obtain ⟨before, after, requested, stepped, opened, closed, history⟩ : ∃ before after,
        follow (fun _ _ => True) StreamRecord.next newStream
          [.received (headersFrame 0 [0x82])] = some before ∧
        before.next (.received (continuationFrame [0x86])) = .ok after ∧
        before.stream.state = .opened ∧ after.stream.state = .halfClosedRemote ∧
        after.history = [.received (continuationFrame [0x86]), .received (headersFrame 0 [0x82])] := by
      exact ⟨_, _, rfl, rfl, rfl, rfl, rfl⟩
    refine ⟨before, after, (run_of_follow requested).of_guarded, stepped, opened, closed, ?_⟩
    rw [history]
    rintro (⟨frame, member, rst⟩ | ⟨newer, frame, older, split, ⟨-, ends⟩, -⟩)
    · simp only [List.mem_cons, Traffic.received.injEq, reduceCtorEq, List.not_mem_nil, or_false]
        at member
      rcases member with rfl | rfl <;> cases rst
    · have member : Traffic.received frame ∈ [Traffic.received (continuationFrame [0x86]),
          .received (headersFrame 0 [0x82])] := by simp [split]
      simp only [List.mem_cons, Traffic.received.injEq, List.not_mem_nil, or_false] at member
      rcases member with rfl | rfl <;> revert ends <;> decide
  · exact ⟨between_open, splitOf_pair endStreamFlag (.inr rfl), by decide +kernel,
      by rw [Stream.SameState]; decide +kernel⟩

end Http2
end AdaWebServer

import AdaWebServer.Http2.Stream
import AdaWebServer.Http2.Wire

/-!
# Request bodies

The DATA frames of a request are read, checked and recorded one after the other, and `Append_Body`
puts their payloads together without the padding.
-/

namespace AdaWebServer
namespace Http2

/-! ## The body of a stream -/

/-- `Data.Append`: the payload without the padding. -/
def Frame.unpadded (self : Frame) : Except Exn Octets :=
  match self.payload with
  | .data content =>
      if content = [] then
        .error .constraintError
      else if self.hasFlag paddedFlag then do
        let pad ← padLength content
        return (content.take (content.length - pad)).drop 1
      else
        .ok content
  | _ => .error .constraintError

/-- `Append_Body`. -/
def Stream.body (self : Stream) : Except Exn Octets := do
  let parts ← self.dFrames.mapM Frame.unpadded
  return parts.flatten

/-! ## Receiving -/

/-- A frame is read, checked and given to its stream; there is no result when it is refused. -/
def acceptFrame (self : Stream) (ctx : Context) (octets : Octets) :
    Option (Stream × Context × Octets) :=
  match Frame.read ctx.settings octets with
  | .error _ => none
  | .ok (frame, rest) =>
      match frame.isDefined, frame.validate ctx.settings with
      | true, .ok .noError =>
          match (self.receivedFrame ctx frame).2 with
          | .ok ⟨self, ctx, .noError⟩ => some (self, ctx, rest)
          | _ => none
      | _, _ => none

/-- A number of frames are accepted one after the other. -/
def acceptFrames : Nat → Stream → Context → Octets → Option (Stream × Context × Octets)
  | 0, self, ctx, octets => some (self, ctx, octets)
  | count + 1, self, ctx, octets =>
      (acceptFrame self ctx octets).bind fun (self, ctx, rest) => acceptFrames count self ctx rest

/-! ## Cutting a body -/

/-- The payload of a DATA frame with optional padding. -/
def paddedPayload (data : Octets) : Option Octets → Octets
  | none => data
  | some padding => UInt8.ofNat padding.length :: (data ++ padding)

/-- A piece of a body, with the padding of its frame. -/
structure Cut where
  data : Octets
  padding : Option Octets
  padding_le : ∀ octets ∈ padding, octets.length ≤ 255
  payload_lt : (paddedPayload data padding).length < 2 ^ 24

namespace Cut

/-- The payload of the frame. -/
def payload (self : Cut) : Octets := paddedPayload self.data self.padding

/-- The flags of the frame. -/
def flags (self : Cut) (last : Bool) : Octet :=
  (if last then endStreamFlag else 0) ||| (if self.padding.isSome then paddedFlag else 0)

/-- The DATA frame of a piece. -/
def toWire (self : Cut) (id : Fin (2 ^ 31)) (last : Bool) : WireFrame where
  kind := 0
  flags := self.flags last
  reserved := false
  streamId := id
  payload := self.payload
  streamId_lt := id.isLt
  length_lt := self.payload_lt

/-- The piece is not empty, and its padding is shorter than 255 octets. -/
def Conveyable (self : Cut) : Prop :=
  self.data ≠ [] ∧ ∀ octets ∈ self.padding, octets.length ≤ 254

instance (self : Cut) : Decidable self.Conveyable :=
  inferInstanceAs (Decidable (_ ∧ _))

end Cut

/-- The frames of a body: the last one ends the stream. -/
def bodyFrames (id : Fin (2 ^ 31)) : List Cut → List WireFrame
  | [] => []
  | cut :: cuts => cut.toWire id cuts.isEmpty :: bodyFrames id cuts

/-- The body that has been cut. -/
def wholeBody (cuts : List Cut) : Octets := cuts.flatMap Cut.data

/-- A receive window after a piece of a body. -/
def windowAfter (limit : Nat) (renewed : Bool) (window : Int) (length : Nat) : Int :=
  if window - length < limit ∧ renewed then naturalLast else window - length

/-- Every piece fits in the window that is left for it. -/
def WithinWindow (limit : Nat) (renewed : Bool) : Int → List Cut → Prop
  | _, [] => True
  | window, cut :: cuts =>
      cut.data.length ≤ window ∧
        WithinWindow limit renewed (windowAfter limit renewed window cut.data.length) cuts

/-- A stream that waits for the pieces of its body: they respect the frame size and the windows,
and the length that the request has announced. -/
structure Awaiting (limit : Nat) (id : Fin (2 ^ 31)) (stream : Stream) (ctx : Context)
    (cuts : List Cut) : Prop where
  opened : stream.state = .opened
  id_eq : stream.id = id
  id_odd : id.val % 2 = 1
  headers_complete : stream.hFrames = []
  announced : stream.contentLength = -1 ∨
    stream.contentLength = stream.bytesReceived + (wholeBody cuts).length
  frame_size : ctx.settings.maxFrameSize = .ok limit
  limit_pos : 1 ≤ limit
  payload_le : ∀ cut ∈ cuts, cut.payload.length ≤ limit
  stream_window : WithinWindow limit (stream.uploadState ≠ .rejected) stream.flowReceiveWindow cuts
  connection_window : WithinWindow limit true ctx.settings.flowReceiveWindow cuts

/-- Every frame is accepted, and the body of the stream has grown by the pieces. -/
def Reassembled (id : Fin (2 ^ 31)) (stream : Stream) (ctx : Context) (cuts : List Cut)
    (before rest : Octets) : Prop :=
  ∃ next after,
    acceptFrames cuts.length stream ctx ((bodyFrames id cuts).flatMap WireFrame.octets ++ rest) =
      some (next, after, rest) ∧
    next.body = .ok (before ++ wholeBody cuts)

/-! ## One frame -/

section Frame

variable {cut : Cut} {id : Fin (2 ^ 31)} {last : Bool}

theorem Cut.hasFlag_endStream (cut : Cut) (last : Bool) :
    decide (cut.flags last &&& endStreamFlag = endStreamFlag) = last := by
  cases last <;> cases padded : cut.padding.isSome <;> simp [Cut.flags, padded] <;> decide

theorem Cut.hasFlag_padded (cut : Cut) (last : Bool) :
    decide (cut.flags last &&& paddedFlag = paddedFlag) = cut.padding.isSome := by
  cases last <;> cases padded : cut.padding.isSome <;> simp [Cut.flags, padded] <;> decide

theorem Cut.toFrame_eq (cut : Cut) (id : Fin (2 ^ 31)) (last : Bool) :
    (cut.toWire id last).toFrame =
      ⟨cut.payload.length, cut.flags last, id, .data cut.payload⟩ := rfl

theorem Cut.padLength_payload (cut : Cut) {padding : Octets} (padded : cut.padding = some padding) :
    Frame.padLength cut.payload = .ok padding.length := by
  have small := cut.padding_le padding padded
  have value : (UInt8.ofNat padding.length).toNat = padding.length := by
    rw [UInt8.toNat_ofNat', Nat.mod_eq_of_lt (by omega)]
  simp [Frame.padLength, Cut.payload, padded, paddedPayload, Frame.octetAt, value]

/-- The header of the frame of a piece passes its check. -/
theorem Cut.validateHeader_ok {limit : Nat} {settings : Connection}
    (frame_size : settings.maxFrameSize = .ok limit) (small : cut.payload.length ≤ limit) :
    Frame.validateHeader settings .data cut.payload.length = .ok .noError := by
  rw [Frame.validateHeader, frame_size, ok_bind, if_neg (by simp [Frame.fixedSize, small]),
    if_neg (by simp)]
  rfl

/-- The frame of a piece is read as such. -/
theorem Cut.read_eq {limit : Nat} {settings : Connection}
    (frame_size : settings.maxFrameSize = .ok limit) (small : cut.payload.length ≤ limit)
    (rest : Octets) :
    Frame.read settings ((cut.toWire id last).octets ++ rest) =
      .ok ((cut.toWire id last).toFrame, rest) := by
  have kind : Kind.ofOctet (cut.toWire id last).kind ≠ .settings :=
    show Kind.data ≠ .settings by decide
  exact WireFrame.read_valid (Cut.validateHeader_ok frame_size small) kind rest

/-- The padding of a frame that carries no data is refused. -/
theorem Cut.validate_eq {limit : Nat} {settings : Connection} (id_ne : id.val ≠ 0)
    (frame_size : settings.maxFrameSize = .ok limit) (small : cut.payload.length ≤ limit) :
    (cut.toWire id last).toFrame.validate settings =
      .ok (if cut.data = [] ∧ cut.padding.isSome then .protocolError else .noError) := by
  have header := Cut.validateHeader_ok frame_size small
  have flag := cut.hasFlag_padded last
  rw [Cut.toFrame_eq, Frame.validate]
  simp only [Frame.kind, Frame.hasFlag, flag, if_neg id_ne, header]
  cases padded : cut.padding with
  | none => simp
  | some padding =>
      have length_eq : cut.payload.length = padding.length + 1 + cut.data.length := by
        simp [Cut.payload, padded, paddedPayload]
        omega
      rw [Option.isSome_some, if_pos rfl, Cut.padLength_payload cut padded, ok_bind]
      by_cases empty : cut.data = []
      · simp [empty, length_eq]
      · have data_pos := List.length_pos_iff.mpr empty
        rw [if_neg (by omega), if_neg (by simp [empty])]

theorem Cut.isDefined_eq :
    (cut.toWire id last).toFrame.isDefined = decide (¬ (cut.data = [] ∧ cut.padding = none)) := by
  rw [Cut.toFrame_eq, Frame.isDefined, Cut.payload]
  cases padded : cut.padding with
  | none => by_cases empty : cut.data = [] <;> simp [paddedPayload, empty]
  | some padding => simp [paddedPayload]

/-- The payload length of a piece, and the check that fails on 255 octets of padding. -/
theorem Cut.payloadLength_eq (nonempty : cut.data ≠ []) :
    (cut.toWire id last).toFrame.payloadLength cut.payload =
      if cut.Conveyable then .ok cut.data.length else .error .constraintError := by
  have flag := cut.hasFlag_padded last
  have data_pos := List.length_pos_iff.mpr nonempty
  have payload_lt := cut.payload_lt
  rw [Cut.toFrame_eq, Frame.payloadLength, Frame.hasFlag, flag, Cut.payload]
  cases padded : cut.padding with
  | none =>
      rw [padded, paddedPayload] at payload_lt
      have small : cut.data.length ≤ naturalLast := by
        simp only [naturalLast]
        omega
      have conveyable : cut.Conveyable := ⟨nonempty, by simp [padded]⟩
      rw [if_pos conveyable]
      simp [paddedPayload, positive_of_le data_pos small]
  | some padding =>
      have pad_le := cut.padding_le padding padded
      have pad := cut.padLength_payload padded
      rw [Cut.payload, padded] at pad
      have length_eq : (paddedPayload cut.data (some padding)).length =
          padding.length + 1 + cut.data.length := by
        simp [paddedPayload]
        omega
      rw [padded, length_eq] at payload_lt
      have small : padding.length + 1 + cut.data.length ≤ naturalLast := by
        simp only [naturalLast]
        omega
      rw [Option.isSome_some, if_pos rfl, pad, ok_bind, length_eq]
      by_cases short : padding.length ≤ 254
      · rw [Nat.mod_eq_of_lt (by omega), positive_of_le (by omega) (by omega), ok_bind,
          naturalSub_of_le (by omega), ok_bind, Nat.add_sub_cancel_left,
          positive_of_le data_pos (by omega), if_pos ⟨nonempty, by simp [padded, short]⟩]
      · have full : padding.length = 255 := by omega
        have unconveyable : ¬cut.Conveyable := fun conveyable =>
          short (conveyable.2 padding padded)
        rw [full, if_neg unconveyable]
        rfl

/-- `Append` on the frame of a piece. -/
theorem Cut.unpadded_eq (nonempty : cut.data ≠ []) :
    (cut.toWire id last).toFrame.unpadded = .ok cut.data := by
  have flag := cut.hasFlag_padded last
  rw [Cut.toFrame_eq, Frame.unpadded, Frame.hasFlag, flag]
  cases padded : cut.padding with
  | none => simp [Cut.payload, padded, paddedPayload, nonempty]
  | some padding =>
      have pad := cut.padLength_payload padded
      rw [Cut.payload, padded] at pad
      have nonempty_payload : paddedPayload cut.data (some padding) ≠ [] := List.cons_ne_nil _ _
      rw [Cut.payload, padded]
      have kept : cut.data.length + padding.length + 1 - padding.length = cut.data.length + 1 := by
        omega
      simp only [nonempty_payload, Option.isSome_some, if_true, if_false, pad, ok_bind]
      simp [paddedPayload, kept]

end Frame

/-! ## One step of the stream -/

section Step

variable {limit : Nat} {stream : Stream} {ctx : Context} {frame : Frame} {content : Octets}
  {length : Nat}

/-- The stream once the length of a DATA frame has been counted and the window opened again. -/
def Stream.counted (self : Stream) (limit : Nat) (frame : Frame) (length : Nat) : Stream :=
  { self with
    dFrames := self.dFrames ++ [frame]
    bytesReceived := self.bytesReceived + length
    flowReceiveWindow :=
      windowAfter limit (self.uploadState ≠ .rejected) self.flowReceiveWindow length }

/-- The context once the length of a DATA frame has been counted. -/
def Context.counted (self : Context) (limit length : Nat) : Context :=
  { self with settings := { self.settings with
    flowReceiveWindow := windowAfter limit true self.settings.flowReceiveWindow length } }

/-- A DATA frame is recorded when both windows can be opened again. -/
theorem Stream.receivedData_opened {self : Stream} {next : Context} {first second : List Frame}
    (length_eq : frame.payloadLength content = .ok length)
    (opened : { stream with
        dFrames := stream.dFrames ++ [frame]
        bytesReceived := stream.bytesReceived + length
        flowReceiveWindow := stream.flowReceiveWindow - length }.openStreamWindow
          { ctx with settings := ctx.settings.updateFlowReceiveWindow (-(length : Int)) } =
      .ok (first, self))
    (connection : openConnectionWindow
        { ctx with settings := ctx.settings.updateFlowReceiveWindow (-(length : Int)) } =
      .ok (second, next)) :
    stream.receivedData ctx frame content = (first ++ second, .ok
      (if self.contentLengthError (frame.hasFlag endStreamFlag) then
        self.refuse next .protocolError .contentLength
      else
        { self with isReady := self.state ≠ StateKind.idle ∧ frame.hasFlag endStreamFlag }.accept
          next)) := by
  rw [receivedData, length_eq]
  dsimp only
  rw [opened]
  dsimp only
  rw [connection]

/-- A DATA frame that fits in both windows is recorded. -/
theorem Stream.receivedData_eq (frame_size : ctx.settings.maxFrameSize = .ok limit)
    (limit_pos : 1 ≤ limit) (length_eq : frame.payloadLength content = .ok length)
    (stream_fits : length ≤ stream.flowReceiveWindow)
    (connection_fits : length ≤ ctx.settings.flowReceiveWindow) :
    (stream.receivedData ctx frame content).2 = .ok
      (if (stream.counted limit frame length).contentLengthError (frame.hasFlag endStreamFlag) then
        (stream.counted limit frame length).refuse (ctx.counted limit length) .protocolError
          .contentLength
      else
        { stream.counted limit frame length with
          isReady := stream.state ≠ StateKind.idle ∧ frame.hasFlag endStreamFlag }.accept
          (ctx.counted limit length)) := by
  let recorded : Stream := { stream with
    dFrames := stream.dFrames ++ [frame]
    bytesReceived := stream.bytesReceived + length
    flowReceiveWindow := stream.flowReceiveWindow - length }
  let charged : Context :=
    { ctx with settings := ctx.settings.updateFlowReceiveWindow (-(length : Int)) }
  have charged_size : charged.settings.maxFrameSize = .ok limit := frame_size
  have stream_window : ∃ updates, recorded.openStreamWindow charged =
      .ok (updates, stream.counted limit frame length) := by
    rw [openStreamWindow_eq charged_size limit_pos]
    by_cases low : stream.flowReceiveWindow - length < limit ∧ stream.uploadState ≠ .rejected
    · have full : windowAfter limit (stream.uploadState ≠ .rejected) stream.flowReceiveWindow length =
          naturalLast := if_pos (by simpa using low)
      rw [if_pos low, if_pos (Int.sub_nonneg.mpr stream_fits), counted, full]
      exact ⟨_, rfl⟩
    · have same : windowAfter limit (stream.uploadState ≠ .rejected) stream.flowReceiveWindow length =
          stream.flowReceiveWindow - length := if_neg (by simpa using low)
      rw [if_neg low, counted, same]
      exact ⟨[], rfl⟩
  have connection_window : ∃ updates, openConnectionWindow charged =
      .ok (updates, ctx.counted limit length) := by
    rw [openConnectionWindow_eq charged_size limit_pos]
    have left : charged.settings.flowReceiveWindow = ctx.settings.flowReceiveWindow - length := by
      simp [charged, Connection.updateFlowReceiveWindow, Int.sub_eq_add_neg]
    by_cases low : ctx.settings.flowReceiveWindow - length < limit
    · have full : windowAfter limit true ctx.settings.flowReceiveWindow length = naturalLast :=
        if_pos ⟨low, rfl⟩
      rw [left, if_pos low, if_pos (Int.sub_nonneg.mpr connection_fits), Context.counted, full]
      exact ⟨_, rfl⟩
    · have same : windowAfter limit true ctx.settings.flowReceiveWindow length =
          ctx.settings.flowReceiveWindow - length := if_neg fun renewed => low renewed.1
      rw [left, if_neg low, Context.counted, same]
      exact ⟨[], rfl⟩
  obtain ⟨first, opened⟩ := stream_window
  obtain ⟨second, connection⟩ := connection_window
  exact congrArg Prod.snd (receivedData_opened length_eq opened connection)

end Step

/-! ## One piece -/

section Piece

variable {limit : Nat} {id : Fin (2 ^ 31)} {stream : Stream} {ctx : Context} {cut : Cut}
  {cuts : List Cut}

namespace Awaiting

theorem id_ne (awaiting : Awaiting limit id stream ctx cuts) : id.val ≠ 0 := by
  have odd := awaiting.id_odd
  omega

/-- An open stream that waits for no header block records a DATA frame. -/
theorem receivedFrame_eq (awaiting : Awaiting limit id stream ctx cuts) (frame : Frame)
    (content : Octets) (payload : frame.payload = .data content) :
    stream.receivedFrame ctx frame =
      { stream with
        dataFlow := .receiving
        errorDetail := .noDetails
        state := if frame.hasFlag endStreamFlag then .halfClosedRemote else .opened }.receivedData
          ctx frame content := by
  have kind : frame.kind = .data := by rw [Frame.kind, payload]
  have odd : stream.id % 2 = 1 := by
    rw [awaiting.id_eq]
    exact awaiting.id_odd
  have id_even : ¬(stream.id ≠ 0 ∧ stream.id % 2 = 0) := by simp [odd]
  rw [Stream.receivedFrame]
  simp only [id_even, Stream.receiveState, awaiting.opened, kind, awaiting.headers_complete,
    Stream.receivedContent, payload, if_false, List.getLast?_nil, Option.map_none, reduceCtorEq,
    false_and]

/-- What the server does with the frame of the next piece. -/
theorem acceptFrame_eq (awaiting : Awaiting limit id stream ctx (cut :: cuts)) (last : Bool)
    (rest : Octets) :
    acceptFrame stream ctx ((cut.toWire id last).octets ++ rest) =
      if cut.data = [] then none else
        match (stream.receivedFrame ctx (cut.toWire id last).toFrame).2 with
        | .ok ⟨self, ctx, .noError⟩ => some (self, ctx, rest)
        | _ => none := by
  have small := awaiting.payload_le cut List.mem_cons_self
  rw [acceptFrame, Cut.read_eq awaiting.frame_size small]
  simp only
  rw [Cut.isDefined_eq, Cut.validate_eq awaiting.id_ne awaiting.frame_size small]
  by_cases empty : cut.data = []
  · cases cut.padding <;> simp [empty]
  · simp [empty]

/-- A piece that is empty or has 255 octets of padding is refused. -/
theorem refused (awaiting : Awaiting limit id stream ctx (cut :: cuts)) (last : Bool)
    (unconveyable : ¬cut.Conveyable) (rest : Octets) :
    acceptFrame stream ctx ((cut.toWire id last).octets ++ rest) = none := by
  rw [awaiting.acceptFrame_eq]
  by_cases empty : cut.data = []
  · rw [if_pos empty]
  · have raised : (cut.toWire id last).toFrame.payloadLength cut.payload = _ :=
      Cut.payloadLength_eq empty
    rw [if_neg unconveyable] at raised
    rw [if_neg empty, awaiting.receivedFrame_eq _ cut.payload rfl, Stream.receivedData, raised]

/-- Any other piece is recorded, and the stream waits for the next ones. -/
theorem accepted (awaiting : Awaiting limit id stream ctx (cut :: cuts))
    (conveyable : cut.Conveyable) (rest : Octets) :
    ∃ next after,
      acceptFrame stream ctx ((cut.toWire id cuts.isEmpty).octets ++ rest) =
        some (next, after, rest) ∧
      next.dFrames = stream.dFrames ++ [(cut.toWire id cuts.isEmpty).toFrame] ∧
      (cuts ≠ [] → Awaiting limit id next after cuts) := by
  have length_eq : (cut.toWire id cuts.isEmpty).toFrame.payloadLength cut.payload = _ :=
    Cut.payloadLength_eq conveyable.1
  rw [if_pos conveyable] at length_eq
  obtain ⟨stream_fits, stream_left⟩ := awaiting.stream_window
  obtain ⟨connection_fits, connection_left⟩ := awaiting.connection_window
  let frame := (cut.toWire id cuts.isEmpty).toFrame
  have ends : frame.hasFlag endStreamFlag = cuts.isEmpty := cut.hasFlag_endStream _
  let receiving : Stream := { stream with
    dataFlow := .receiving
    errorDetail := .noDetails
    state := if frame.hasFlag endStreamFlag then .halfClosedRemote else .opened }
  have recorded := Stream.receivedData_eq awaiting.frame_size awaiting.limit_pos length_eq
    (show _ ≤ receiving.flowReceiveWindow from stream_fits) connection_fits
  have consistent : (receiving.counted limit frame cut.data.length).contentLengthError
      (frame.hasFlag endStreamFlag) = false := by
    have counted : (receiving.counted limit frame cut.data.length).bytesReceived =
      stream.bytesReceived + cut.data.length := rfl
    have same : (receiving.counted limit frame cut.data.length).contentLength =
      stream.contentLength := rfl
    rw [Stream.contentLengthError, counted, same, ends]
    rcases awaiting.announced with absent | announced
    · simp [absent]
    · rw [announced]
      cases cuts with
      | nil => simp [wholeBody]
      | cons next cuts =>
          have whole : wholeBody (cut :: next :: cuts) = cut.data ++ wholeBody (next :: cuts) := rfl
          rw [whole, List.length_append, List.isEmpty_cons]
          generalize (wholeBody (next :: cuts)).length = later
          simp
  let next : Stream := { receiving.counted limit frame cut.data.length with
    isReady := receiving.state ≠ StateKind.idle ∧ frame.hasFlag endStreamFlag }
  refine ⟨next, ctx.counted limit cut.data.length, ?_, ?_, ?_⟩
  · rw [awaiting.acceptFrame_eq, if_neg conveyable.1, awaiting.receivedFrame_eq _ cut.payload rfl,
      recorded, consistent]
    rfl
  · rfl
  · intro more
    have open_still : frame.hasFlag endStreamFlag = false := by
      rw [ends, List.isEmpty_eq_false_iff]
      exact more
    exact {
      opened := by
        show (if frame.hasFlag endStreamFlag = true then StateKind.halfClosedRemote else .opened) = _
        rw [open_still]
        rfl
      id_eq := awaiting.id_eq
      id_odd := awaiting.id_odd
      headers_complete := awaiting.headers_complete
      announced := awaiting.announced.imp_right fun announced => by
        have grown : next.bytesReceived = stream.bytesReceived + cut.data.length := rfl
        rw [show next.contentLength = stream.contentLength from rfl, announced, grown]
        simp only [wholeBody, List.flatMap_cons, List.length_append]
        omega
      frame_size := awaiting.frame_size
      limit_pos := awaiting.limit_pos
      payload_le := fun other member => awaiting.payload_le other (List.mem_cons_of_mem cut member)
      stream_window := stream_left
      connection_window := connection_left }

end Awaiting

end Piece

/-! ## The whole body -/

section Whole

variable {limit : Nat} {id : Fin (2 ^ 31)} {stream : Stream} {ctx : Context} {cuts : List Cut}
  {before : Octets}

theorem Stream.body_append {next : Stream} {frame : Frame} {data : Octets}
    (body : stream.body = .ok before) (unpadded : frame.unpadded = .ok data)
    (grown : next.dFrames = stream.dFrames ++ [frame]) : next.body = .ok (before ++ data) := by
  obtain ⟨parts, parts_eq, flattened⟩ := bind_eq_ok_iff.mp body
  cases flattened
  rw [Stream.body, grown, List.mapM_append, parts_eq, ok_bind]
  simp [unpadded]

theorem reassembled_nil (body : stream.body = .ok before) (rest : Octets) :
    Reassembled id stream ctx [] before rest :=
  ⟨stream, ctx, rfl, by simpa [wholeBody] using body⟩

/-- A body is put together again by its first piece and then by the others. -/
theorem reassembled_cons_iff {cut : Cut} {rest : Octets} :
    Reassembled id stream ctx (cut :: cuts) before rest ↔
      ∃ next after others,
        acceptFrame stream ctx ((cut.toWire id cuts.isEmpty).octets ++
          ((bodyFrames id cuts).flatMap WireFrame.octets ++ rest)) = some (next, after, others) ∧
        ∃ final end_ctx, acceptFrames cuts.length next after others = some (final, end_ctx, rest) ∧
          final.body = .ok (before ++ cut.data ++ wholeBody cuts) := by
  simp only [Reassembled, acceptFrames, bodyFrames, wholeBody, List.length_cons, List.flatMap_cons,
    List.append_assoc, Option.bind_eq_some_iff, Prod.exists]
  constructor
  · rintro ⟨final, end_ctx, ⟨next, after, others, first, more⟩, body⟩
    exact ⟨next, after, others, first, final, end_ctx, more, body⟩
  · rintro ⟨next, after, others, first, final, end_ctx, more, body⟩
    exact ⟨final, end_ctx, ⟨next, after, others, first, more⟩, body⟩

/-- A body is put together again exactly when none of its pieces is empty or padded with 255
octets. -/
theorem reassembled_iff (awaiting : Awaiting limit id stream ctx cuts)
    (body : stream.body = .ok before) (rest : Octets) :
    Reassembled id stream ctx cuts before rest ↔ ∀ cut ∈ cuts, cut.Conveyable := by
  induction cuts generalizing stream ctx before with
  | nil => exact iff_of_true (reassembled_nil body rest) (by simp)
  | cons cut cuts ih =>
      rw [reassembled_cons_iff, List.forall_mem_cons]
      by_cases conveyable : cut.Conveyable
      · obtain ⟨next, after, accepted, grown, waits⟩ := awaiting.accepted conveyable
          ((bodyFrames id cuts).flatMap WireFrame.octets ++ rest)
        have longer := Stream.body_append body (Cut.unpadded_eq conveyable.1) grown
        have remaining : Reassembled id next after cuts (before ++ cut.data) rest ↔
            ∀ cut ∈ cuts, cut.Conveyable := by
          by_cases last : cuts = []
          · subst last
            exact iff_of_true (reassembled_nil longer rest) (by simp)
          · exact ih (waits last) longer
        rw [accepted, ← remaining]
        constructor
        · rintro ⟨_, _, _, same, others⟩
          cases same
          exact ⟨conveyable, others⟩
        · rintro ⟨-, others⟩
          exact ⟨_, _, _, rfl, others⟩
      · rw [awaiting.refused _ conveyable]
        exact iff_of_false (by simp) fun both => conveyable both.1

end Whole

/-! ## A short upload -/

/-- A stream that has received the header block of its request. -/
def uploading : Stream :=
  { Stream.create 1 65535 with
    state := .opened
    headerFound := true
    dataFlow := .receiving }

/-- A body of five octets in two frames, the second of them padded. -/
def uploadCuts : List Cut :=
  [⟨[72, 101], none, by simp, by decide⟩, ⟨[108, 108, 111], some [0, 0], by decide, by decide⟩]

/-- A body with an empty last frame. -/
def emptyLastCuts : List Cut :=
  [⟨[72, 101], none, by simp, by decide⟩, ⟨[], none, by simp, by decide⟩]

/-- A frame with 255 octets of padding. -/
def fullPaddingCuts : List Cut :=
  [⟨[72, 101], some (List.replicate 255 0), by decide +kernel, by decide +kernel⟩]

/-- A frame that consists of padding. -/
def onlyPaddingCuts : List Cut :=
  [⟨[], some [0, 0], by decide, by decide⟩, ⟨[72, 101], none, by simp, by decide⟩]

private theorem awaiting_uploading (cuts : List Cut)
    (payload_le : ∀ cut ∈ cuts, cut.payload.length ≤ 16384)
    (fits : WithinWindow 16384 true 65535 cuts) :
    Awaiting 16384 1 uploading (.create .default (2 ^ 20)) cuts where
  opened := rfl
  id_eq := rfl
  id_odd := rfl
  headers_complete := rfl
  announced := .inl rfl
  frame_size := rfl
  limit_pos := by decide
  payload_le := payload_le
  stream_window := fits
  connection_window := fits

theorem reassembled_upload :
    Reassembled 1 uploading (.create .default (2 ^ 20)) uploadCuts [] [] :=
  (reassembled_iff (awaiting_uploading uploadCuts (by decide) ⟨by decide, by decide, trivial⟩)
    rfl []).mpr (by decide)

/-- An empty last frame, 255 octets of padding and a frame of padding only end the connection. -/
theorem lawful_cuts_refused :
    (Awaiting 16384 1 uploading (.create .default (2 ^ 20)) emptyLastCuts ∧
      ¬Reassembled 1 uploading (.create .default (2 ^ 20)) emptyLastCuts [] []) ∧
    (Awaiting 16384 1 uploading (.create .default (2 ^ 20)) fullPaddingCuts ∧
      ¬Reassembled 1 uploading (.create .default (2 ^ 20)) fullPaddingCuts [] []) ∧
    (Awaiting 16384 1 uploading (.create .default (2 ^ 20)) onlyPaddingCuts ∧
      ¬Reassembled 1 uploading (.create .default (2 ^ 20)) onlyPaddingCuts [] []) := by
  have refused : ∀ cuts ∈ [emptyLastCuts, fullPaddingCuts, onlyPaddingCuts],
      (acceptFrames cuts.length uploading (.create .default (2 ^ 20))
        ((bodyFrames 1 cuts).flatMap WireFrame.octets ++ [])).isNone := by
    decide +kernel
  have not_reassembled : ∀ cuts ∈ [emptyLastCuts, fullPaddingCuts, onlyPaddingCuts],
      ¬Reassembled 1 uploading (.create .default (2 ^ 20)) cuts [] [] := by
    rintro cuts member ⟨next, after, accepted, -⟩
    have none := refused cuts member
    rw [accepted] at none
    cases none
  refine ⟨⟨?_, not_reassembled _ (by simp)⟩, ⟨?_, not_reassembled _ (by simp)⟩,
    ⟨?_, not_reassembled _ (by simp)⟩⟩
  · exact awaiting_uploading _ (by decide) ⟨by decide, by decide, trivial⟩
  · exact awaiting_uploading _ (by decide +kernel) ⟨by decide, trivial⟩
  · exact awaiting_uploading _ (by decide) ⟨by decide, by decide, trivial⟩

end Http2
end AdaWebServer

import AdaWebServer.Http2.Hpack.Encode
import AdaWebServer.Http2.SendFile
import AdaWebServer.Http2.Stream

/-!
# Messages

A message is the answer to a request.  `To_Frames` makes the frames of it that the flow-control
windows allow, and is called again as long as more frames remain.
-/

namespace AdaWebServer
namespace Http2

open Resources

/-- `Response.Data_Mode`. -/
inductive ResponseMode where
  | header
  | message
  | file
  | fileOnce
  | stream
  | socketTaken
  | webSocket
  | noData
  deriving DecidableEq, Repr

/-- `Message.Object` of a response. -/
structure Message (Resource : Type) where
  mode : ResponseMode
  /-- The value of the range header, empty without it. -/
  ranges : Text
  streamId : StreamId
  headers : Hpack.Headers
  /-- Octets of the body that have been put in frames. -/
  sent : Nat
  /-- Whether the header has been sent. -/
  hSent : Bool
  /-- Whether the body has been sent. -/
  bSent : Bool
  mBody : Option Resource
  deriving DecidableEq

/-! ## Header frames -/

namespace Frame

/-- A frame that has an encoded header list as its payload; its length is a `Length_Type`. -/
def encoded (stack : Nat) (settings : Connection) (table : Hpack.DynamicTable)
    (list : Hpack.Headers) (frame : Octets → Frame) : Except Exn (Frame × Hpack.DynamicTable) := do
  let (octets, table) ← Hpack.encode stack settings table list
  if octets.length < 2 ^ 24 then
    return (frame octets, table)
  else
    .error .constraintError

/-- `Headers.Create`. -/
def createHeaders (stack : Nat) (settings : Connection) (table : Hpack.DynamicTable)
    (streamId : StreamId)
    (list : Hpack.Headers) (flags : Octet) : Except Exn (Frame × Hpack.DynamicTable) :=
  encoded stack settings table list fun octets => ⟨octets.length, flags, streamId, .headers octets⟩

/-- `Continuation.Create`. -/
def createContinuation (stack : Nat) (settings : Connection) (table : Hpack.DynamicTable)
    (streamId : StreamId)
    (list : Hpack.Headers) (endHeaders : Bool) : Except Exn (Frame × Hpack.DynamicTable) :=
  encoded stack settings table list fun octets =>
    ⟨octets.length, if endHeaders then endHeadersFlag else 0, streamId, .continuation octets⟩

/-- The frame that the loop of `Handle_Headers` makes when a part of the list is complete. -/
def createPart (stack : Nat) (settings : Connection) (table : Hpack.DynamicTable)
    (streamId : StreamId)
    (list : Hpack.Headers) (isFirst last : Bool) : Except Exn (Frame × Hpack.DynamicTable) :=
  if isFirst then
    createHeaders stack settings table streamId list (if last then endHeadersFlag else 0)
  else
    createContinuation stack settings table streamId list last

/-- `List (List.Last).Set_Flag`. -/
def setLastFlag (list : List Frame) (flag : Octet) : Except Exn (List Frame) :=
  match list.getLast? with
  | some last => .ok (list.dropLast ++ [last.setFlag flag])
  | none => .error .constraintError

end Frame

/-- Size of a header in a header list. -/
def headerSize (header : Text × Text) : Nat := 32 + header.1.length + header.2.length

/-- The loop of `Handle_Headers`, with the headers of the next frame, their size, and whether no
frame has been made yet. -/
def headerFrames (stack : Nat) (settings : Connection) (streamId : StreamId) (maxSize : Nat) :
    Hpack.Headers → Hpack.Headers → Nat → Bool → Hpack.DynamicTable →
      Except Exn (List Frame × Hpack.DynamicTable)
  | [], l, _, _, table =>
      if l = [] then
        .ok ([], table)
      else do
        let (frame, table) ← Frame.createHeaders stack settings table streamId l endHeadersFlag
        return ([frame], table)
  | header :: headers, l, size, isFirst, table => do
      let elementSize ← positive (headerSize header)
      let size ← natural (size + elementSize)
      if maxSize < size then do
        let (frame, table) ← Frame.createPart stack settings table streamId l isFirst (headers = [])
        let (frames, table) ←
          headerFrames stack settings streamId maxSize headers [header] elementSize false table
        return (frame :: frames, table)
      else
        headerFrames stack settings streamId maxSize headers (l ++ [header]) size isFirst table

namespace Message

variable {Resource : Type}

/-- `Has_Body`. -/
def hasBody (self : Message Resource) : Bool :=
  self.mode ∈ [.message, .file, .fileOnce, .stream] ∧ self.mBody.isSome

/-- `More_Frames`. -/
def moreFrames (self : Message Resource) : Bool :=
  if self.hasBody then !self.bSent else !self.hSent

/-- `Handle_Headers`. -/
def handleHeaders (self : Message Resource) (ctx : Context) (streamId : StreamId) :
    Except Exn (List Frame × Hpack.DynamicTable) := do
  let maxSize ← positive ctx.settings.maxHeaderListSize
  let (list, table) ←
    headerFrames ctx.stack ctx.settings streamId maxSize self.headers [] 0 true ctx.tabEnc
  if self.hasBody then
    return (list, table)
  else do
    let list ← Frame.setLastFlag list endStreamFlag
    return (list, table)

variable [StreamType Resource]

/-- The headers of the message, with the length of its body when they lack it. -/
def withContentLength (self : Message Resource) : Hpack.Headers :=
  if self.headers.any (fun header => toLower header.1 = text "content-length") ∨
      self.ranges ≠ [] then
    self.headers
  else
    match self.mBody.bind StreamType.size with
    | some size => self.headers ++ [(text "content-length", image size)]
    | none => self.headers

/-- `From_Stream`. -/
def fromStream (self : Message Resource) (settings : Connection) (streamId : StreamId)
    (list : List Frame) (fcw : Nat) : Except Exn (List Frame × Message Resource) := do
  let maxFrameSize ← settings.maxFrameSize
  let limit ← positive maxFrameSize
  match self.mBody with
  | none => .error .constraintError
  | some file =>
      let framing : Framing := { list, fcw, bSent := self.bSent }
      if self.ranges ≠ [] then do
        let length := ((StreamType.size file).map Int.ofNat).getD (-1)
        let (file, framing) ←
          framing.sendFileRanges streamId file self.ranges (min fcw limit) length
        return (framing.list, { self with mBody := some file, bSent := framing.bSent })
      else do
        let (file, framing, sent) ←
          framing.sendFile streamId file (self.sent + 1) (min fcw limit) self.sent
        return (framing.list, { self with mBody := some file, bSent := framing.bSent, sent })

/-- The part of `To_Frames` that makes the header frames. -/
def sendHeaders (self : Message Resource) (ctx : Context) (streamId : StreamId) :
    Except Exn (List Frame × Message Resource × Hpack.DynamicTable) :=
  if self.hSent then
    .ok ([], self, ctx.tabEnc)
  else do
    let self := { self with headers := self.withContentLength }
    let (list, table) ← self.handleHeaders ctx streamId
    return (list, { self with hSent := true }, table)

/-- The part of `To_Frames` that makes the data frames. -/
def sendBody (self : Message Resource) (settings : Connection) (streamId : StreamId)
    (list : List Frame) (fcw : Nat) : Except Exn (List Frame × Message Resource) :=
  if self.hasBody ∧ 0 < fcw then do
    let (list, self) ← self.fromStream settings streamId list fcw
    match list.getLast?.map Frame.kind with
    | none => .error .constraintError
    | some .headers => do
        -- If file is empty the last frame is the header one
        let list ← Frame.setLastFlag list endStreamFlag
        return (list, self)
    | some _ => return (list, self)
  else
    .ok (list, self)

/-- `To_Frames`: the frames, the message and the encoding table. -/
def toFrames (self : Message Resource) (ctx : Context) (stream : Stream) :
    Except Exn (List Frame × Message Resource × Hpack.DynamicTable) := do
  let fcw ← naturalOfInt (min stream.flowSendWindow ctx.settings.flowSendWindow)
  let (list, self, table) ← self.sendHeaders ctx stream.id
  let (list, self) ← self.sendBody ctx.settings stream.id list fcw
  return (list, self, table)

end Message
end Http2
end AdaWebServer

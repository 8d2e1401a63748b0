import AdaWebServer.Http2.Frame
import AdaWebServer.Resources.Stream

/-!
# Sending a resource

`Send_File_G` and `Send_File_Ranges_G` hand pieces of a resource to a procedure, which gives the
size of the next piece.  In a connection that procedure is `Create_Data_Frame` of `To_Frames`.
-/

namespace AdaWebServer
namespace Http2

open Resources

/-- What `Create_Data_Frame` changes in `To_Frames`. -/
structure Framing where
  /-- The list of created frames. -/
  list : List Frame
  /-- Current flow control window. -/
  fcw : Nat
  bSent : Bool

namespace Framing

/-- `Create_Data_Frame`, with the size of the next piece. -/
def createDataFrame (streamId : StreamId) (self : Framing) (content : Octets) (nextSize : Nat) :
    Except Exn (Framing × Nat) := do
  let fcw ← naturalSub self.fcw content.length
  return ({
      list := self.list ++ [Frame.createData streamId content (nextSize = 0)]
      fcw
      bSent := self.bSent || nextSize = 0 },
    if fcw < nextSize then fcw else nextSize)

/-! ## Whole resources -/

section File

variable {Resource : Type} [StreamType Resource]

/-- The loop of `Send_File_G`.  `Check_Data_Timeout` ends it when the resource gives nothing. -/
def sendPieces (streamId : StreamId) : Nat → Resource → Framing → Nat → Nat →
    Except Exn (Resource × Framing × Nat)
  | 0, _, _, _, _ => .error .socketError
  | fuel + 1, file, framing, nextSize, length => do
      let (data, file) ← StreamType.read file nextSize
      let nextSize := if StreamType.endOfFile file then 0 else nextSize
      let (framing, nextSize) ←
        if data ≠ [] then framing.createDataFrame streamId data nextSize
        else pure (framing, nextSize)
      let length := length + data.length
      if nextSize = 0 then
        return (file, framing, length)
      else
        sendPieces streamId fuel file framing nextSize length

/-- `Send_File_G`: the resource, the frames, and the number of octets sent in all. -/
def sendFile (streamId : StreamId) (file : Resource) (framing : Framing)
    (start chunkSize length : Nat) : Except Exn (Resource × Framing × Nat) := do
  let file ← StreamType.setIndex file start
  sendPieces streamId (framing.fcw + 1) file framing chunkSize length

end File

/-! ## Ranges -/

/-- `Stream_Element_Offset'Value`. -/
def offsetValue (literal : Text) : Except Exn Int :=
  match integerValue literal with
  | some value =>
      if -2 ^ 63 ≤ value ∧ value < 2 ^ 63 then .ok value else .error .constraintError
  | none => .error .constraintError

/-- `Parse_Content_Range`: the first and the last index of a range. -/
def parseContentRange (hValue : Text) (length : Int) : Except Exn (Int × Int) := do
  let before := hValue.takeWhile (· ≠ 45)
  let after := hValue.drop (before.length + 1)
  if before = hValue then
    .error .constraintError
  else do
    let last ← if after = [] then pure (length - 1) else do
        let last ← offsetValue after
        pure (if length ≤ last then length - 1 else last)
    if before = [] then
      return (length - last, length - 1)
    else do
      let first ← offsetValue before
      return (first, last)

/-- `ASCII.CR & ASCII.LF`. -/
def crlf : Text := [13, 10]

/-- The separator of the parts of a `multipart/byteranges` body. -/
def boundary : Text := text "aws_range_separator"

/-- `Stream_Element_Offset'Image`. -/
def offsetImage (number : Int) : Text :=
  (if 0 ≤ number then text " " else []) ++ text (toString number)

/-- `Send`: a text that belongs to the body.  Without any window left it creates empty frames until
no memory is left. -/
def sendText (streamId : StreamId) (lastOne : Bool) : Nat → Octets → Framing → Nat →
    Except Exn (Framing × Nat)
  | 0, _, _, _ => .error .storageError
  | fuel + 1, buffer, framing, nextSize =>
      if buffer.length ≤ nextSize then
        framing.createDataFrame streamId buffer (if lastOne then 0 else nextSize)
      else if nextSize = 0 then
        .error .storageError
      else do
        let (framing, next) ← framing.createDataFrame streamId (buffer.take nextSize) nextSize
        sendText streamId lastOne fuel (buffer.drop nextSize) framing next

/-- `Send` on a text. -/
def send (streamId : StreamId) (framing : Framing) (nextSize : Nat) (str : Text)
    (lastOne : Bool) : Except Exn (Framing × Nat) :=
  sendText streamId lastOne (str.length + 1) str framing nextSize

section Ranges

variable {Resource : Type} [StreamType Resource]

/-- The loop of `Send_Range`, with the number of octets of the range that are left. -/
def sendRangePieces (streamId : StreamId) (nRange : Nat) : Nat → Resource → Framing → Nat → Int →
    Except Exn (Resource × Framing × Nat)
  | 0, _, _, _, _ => .error .socketError
  | fuel + 1, file, framing, nextSize, left =>
      if left = 0 then
        .ok (file, framing, nextSize)
      else do
        let size := if (nextSize : Int) < left then nextSize else left.toNat
        let nextSize := if left ≤ (nextSize : Int) ∧ nRange = 1 then 0 else nextSize
        let (data, file) ← StreamType.read file size
        if data = [] then
          return (file, framing, nextSize)
        else do
          let (framing, nextSize) ← framing.createDataFrame streamId data nextSize
          sendRangePieces streamId nRange fuel file framing nextSize (left - data.length)

/-- `Send_Range`: a single range. -/
def sendRange (streamId : StreamId) (nRange : Nat) (length : Int) (file : Resource)
    (framing : Framing) (nextSize : Nat) (range : Text) :
    Except Exn (Resource × Framing × Nat) := do
  let (framing, nextSize) ←
    if nRange ≠ 1 then framing.send streamId nextSize (text "--" ++ boundary ++ crlf) false
    else pure (framing, nextSize)
  let (first, last) ← parseContentRange range length
  let rangeLength := last - first + 1
  let (framing, nextSize) ←
    if nRange ≠ 1 then
      framing.send streamId nextSize (text "Content-Range" ++ text ": bytes " ++
        text (toString first) ++ text "-" ++ text (toString last) ++ text "/" ++
        text (toString length) ++ crlf ++ text "Content-Length" ++ text ":" ++
        offsetImage rangeLength ++ crlf ++ crlf) false
    else pure (framing, nextSize)
  let file ← StreamType.setIndex file (first + 1).toNat
  sendRangePieces streamId nRange (rangeLength.toNat + 1) file framing nextSize rangeLength

/-- The loop of `Send_File_Ranges_G` over the ranges. -/
def sendEachRange (streamId : StreamId) (nRange : Nat) (length : Int) : List Text → Resource →
    Framing → Nat → Except Exn (Resource × Framing × Nat)
  | [], file, framing, nextSize => .ok (file, framing, nextSize)
  | range :: ranges, file, framing, nextSize => do
      let (file, framing, nextSize) ←
        sendRange streamId nRange length file framing nextSize range
      sendEachRange streamId nRange length ranges file framing nextSize

/-- `Send_File_Ranges_G`, in HTTP/2 mode. -/
def sendFileRanges (streamId : StreamId) (file : Resource) (framing : Framing) (ranges : Text)
    (chunkSize : Nat) (length : Int) : Except Exn (Resource × Framing) := do
  let nRange := 1 + ranges.count 44
  let specs := (if 61 ∈ ranges then (ranges.dropWhile (· ≠ 61)).tail else ranges).splitOn 44
  if specs.length ≠ nRange then
    .error .constraintError
  else do
    let (file, framing, nextSize) ←
      sendEachRange streamId nRange length specs file framing chunkSize
    if nRange ≠ 1 then do
      let (framing, _) ←
        framing.send streamId nextSize (text "--" ++ boundary ++ text "--" ++ crlf) true
      return (file, framing)
    else
      return (file, framing)

end Ranges

end Framing
end Http2
end AdaWebServer

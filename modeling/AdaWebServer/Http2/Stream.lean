import AdaWebServer.Http2.ControlFrame
import AdaWebServer.Http2.Hpack.Decode

/-!
# Streams

A stream keeps its state, the frames of the header block and of the body that it has received, and
its flow-control windows.
-/

namespace AdaWebServer
namespace Http2

/-- `Stream.State_Kind`. -/
inductive StateKind where
  | idle
  | reservedLocal
  | reservedRemote
  | opened
  | halfClosedLocal
  | halfClosedRemote
  | closed
  deriving DecidableEq, Repr

/-- `State_Kind'Pos`. -/
def StateKind.pos : StateKind → Nat
  | idle => 0
  | reservedLocal => 1
  | reservedRemote => 2
  | opened => 3
  | halfClosedLocal => 4
  | halfClosedRemote => 5
  | closed => 6

/-- `Stream.Upload_State_Kind`. -/
inductive UploadState where
  | idle
  | oversize
  | accepted
  | rejected
  deriving DecidableEq, Repr

/-- `Stream.Direction`. -/
inductive Direction where
  | unknown
  | sending
  | receiving
  deriving DecidableEq, Repr

/-- `Stream.Error_Details`. -/
inductive ErrorDetails where
  | noDetails
  | streamIdEven
  | fromIdle
  | reservedRemote
  | halfClosedLocal
  | halfClosedRemote
  | closed
  | noContinuation
  | continuation
  | priority
  | windowUpdate
  | headers
  | contentLength
  deriving DecidableEq, Repr

/-- `Stream.Object`. -/
structure Stream where
  id : StreamId
  state : StateKind
  /-- Frames of the header block that is being received. -/
  hFrames : List Frame
  /-- Frames of the body. -/
  dFrames : List Frame
  headers : Hpack.Headers
  isReady : Bool
  headerFound : Bool
  uploadState : UploadState
  flowSendWindow : Int
  flowReceiveWindow : Int
  bytesSent : Nat
  weight : Octet
  streamDependency : StreamId
  endStream : Bool
  /-- Value of the content-length header, -1 without it. -/
  contentLength : Int
  bytesReceived : Nat
  dataFlow : Direction
  errorDetail : ErrorDetails
  /-- `Response.Keep_Alive` of the response. -/
  keepAlive : Bool
  deriving DecidableEq

/-- `Server.Context.Object`, with the limit of local arrays on the stack of the task. -/
structure Context where
  config : Config
  stack : Nat
  tabEnc : Hpack.DynamicTable
  tabDec : Hpack.DynamicTable
  settings : Connection

/-- The context of a new connection. -/
def Context.create (config : Config) (stack : Nat) : Context where
  config := config
  stack := stack
  tabEnc := .empty
  tabDec := .empty
  settings := .configured config

namespace Stream

/-- `Create`. -/
def create (identifier : StreamId) (windowSize : Nat) : Stream where
  id := identifier
  state := .idle
  hFrames := []
  dFrames := []
  headers := []
  isReady := false
  headerFound := false
  uploadState := .idle
  flowSendWindow := windowSize
  flowReceiveWindow := Config.default.initialWindowSize.val
  bytesSent := 0
  weight := 16
  streamDependency := 0
  endStream := false
  contentLength := -1
  bytesReceived := 0
  dataFlow := .unknown
  errorDetail := .noDetails
  keepAlive := true

/-! ## Headers -/

/-- `Headers.Get`: the first value of a name, in any case, or nothing. -/
def getHeader (headers : Hpack.Headers) (name : Text) : Text :=
  ((headers.find? fun header => toLower header.1 = toLower name).map Prod.snd).getD []

/-- The octets that `Next` of `Parse_Header` delivers, and what it raises after them. -/
def nextOctets : List Frame → Octets × Option Exn
  | [] => ([], none)
  | frame :: frames =>
      match frame.contentLength with
      | .error exn => ([], some exn)
      | .ok 0 =>
          ([], some (.protocolError
            (exceptionMessage .protocolError "header with length of 0")))
      | .ok length =>
          let (octets, fault) := nextOctets frames
          (frame.fragment length ++ octets, fault)

/-- `Parse_Headers`: decode the header block and look for the length of the content. -/
def parseHeaders (self : Stream) (ctx : Context) : Except Exn (Stream × Context) := do
  let (octets, fault) := nextOctets self.hFrames
  let block ← Hpack.decode fault ctx.stack ctx.tabDec ctx.settings octets
  let ctx := { ctx with tabDec := block.table, settings := block.settings }
  let self := { self with hFrames := [], headers := self.headers ++ block.headers }
  let contentLength := getHeader self.headers (text "Content-Length")
  if contentLength = [] then
    return (self, ctx)
  else
    match integerValue contentLength with
    | none => .error .constraintError
    | some value =>
        if value < -1 ∨ 2 ^ 63 ≤ value then
          .error .constraintError
        else if (ctx.config.uploadSizeLimit.val : Int) < value then
          return ({ self with contentLength := value, uploadState := .oversize }, ctx)
        else
          return ({ self with contentLength := value }, ctx)

/-! ## Received frames -/

/-- The stream state after a received frame, or the error. -/
def receiveState (self : Stream) (frame : Frame) : Except (ErrorCode × ErrorDetails) StateKind :=
  let endHeader := frame.hasFlag endHeadersFlag
  let endStream := frame.hasFlag endStreamFlag
  match self.state with
  | .idle =>
      match frame.kind with
      | .headers => .ok (if endStream ∧ endHeader then .halfClosedRemote else .opened)
      | .pushPromise => .ok .reservedRemote
      | .priority => .ok .idle
      | _ => .error (.protocolError, .fromIdle)
  | .opened =>
      match frame.kind with
      | .rstStream => .ok .closed
      | .continuation => .ok (if endHeader then .halfClosedRemote else .opened)
      | _ => .ok (if endStream then .halfClosedRemote else .opened)
  | .reservedLocal =>
      match frame.kind with
      | .rstStream => .ok .closed
      | _ => .ok (if endStream then .halfClosedRemote else .reservedLocal)
  | .reservedRemote =>
      match frame.kind with
      | .rstStream => .ok .closed
      | .priority => .ok .reservedRemote
      | .headers => .ok .reservedRemote
      | _ => .error (.protocolError, .reservedRemote)
  | .halfClosedLocal =>
      match frame.kind with
      | .rstStream => .ok .closed
      | _ =>
          if endStream then
            if self.uploadState ≠ .rejected then
              .error (.protocolError, .halfClosedLocal)
            else
              .ok .closed
          else
            .ok .halfClosedLocal
  | .halfClosedRemote =>
      match frame.kind with
      | .rstStream => .ok .closed
      | .data => .error (.streamClosed, .halfClosedRemote)
      | .headers => .error (.streamClosed, .halfClosedRemote)
      | .continuation => .error (.streamClosed, .halfClosedRemote)
      | _ => .ok .halfClosedRemote
  | .closed =>
      match frame.kind with
      | .priority => .ok .closed
      | .rstStream => .ok .closed
      | .windowUpdate => .ok .closed
      | _ => .error (.streamClosed, .closed)

/-- What `Received_Frame` leaves when it does not raise. -/
structure Received where
  stream : Stream
  ctx : Context
  error : ErrorCode

/-- Return with an error and its details. -/
def refuse (self : Stream) (ctx : Context) (error : ErrorCode) (info : ErrorDetails) : Received where
  stream := { self with errorDetail := info }
  ctx := ctx
  error := error

/-- Return without an error. -/
def accept (self : Stream) (ctx : Context) : Received where
  stream := self
  ctx := ctx
  error := .noError

/-- `Handle_Priority`. -/
def handlePriority (self : Stream) (priority : PriorityPayload) : Stream :=
  { self with weight := priority.weight, streamDependency := priority.streamDependency }

/-- The last frame of the header block that is being received lacks `End_Headers_Flag`. -/
def inHeaderBlock (self : Stream) : Bool :=
  match self.hFrames.getLast? with
  | some last => !last.hasFlag endHeadersFlag
  | none => false

/-- `K_Priority` in `Received_Frame`. -/
def receivedPriority (self : Stream) (ctx : Context) (priority : PriorityPayload) : Received :=
  if self.inHeaderBlock then
    self.refuse ctx .protocolError .priority
  else
    (self.handlePriority priority).accept ctx

/-- `K_Window_Update` in `Received_Frame`. -/
def receivedWindowUpdate (self : Stream) (ctx : Context) (increment : Nat) : Received :=
  if self.inHeaderBlock then
    self.refuse ctx .protocolError .windowUpdate
  else if Connection.flowControlWindowValid self.flowSendWindow increment then
    { self with flowSendWindow := self.flowSendWindow + increment }.accept ctx
  else
    self.refuse ctx .flowControlError self.errorDetail

/-- `K_Headers` in `Received_Frame`. -/
def receivedHeaders (self : Stream) (ctx : Context) (frame : Frame) (content : Octets) :
    Except Exn Received := do
  let endHeader := frame.hasFlag endHeadersFlag
  let endStream := frame.hasFlag endStreamFlag
  if ¬ endStream ∧ self.headerFound then
    return self.refuse ctx .protocolError .headers
  else do
    let self := { self with
      endStream := self.endStream || endStream
      headerFound := true
      hFrames := self.hFrames ++ [frame] }
    let self ← if frame.hasFlag priorityFlag then do
        let priority ← frame.getPriority content
        pure (self.handlePriority priority)
      else
        pure self
    let (self, ctx) ← if endHeader then self.parseHeaders ctx else pure (self, ctx)
    return { self with isReady := self.state ≠ StateKind.idle ∧ endHeader ∧ endStream }.accept ctx

/-- `K_Continuation` in `Received_Frame`. -/
def receivedContinuation (self : Stream) (ctx : Context) (frame : Frame) : Except Exn Received := do
  let endHeader := frame.hasFlag endHeadersFlag
  let endStream := frame.hasFlag endStreamFlag
  if self.hFrames = [] then
    return self.refuse ctx .protocolError .continuation
  else do
    let self := { self with hFrames := self.hFrames ++ [frame] }
    let (self, ctx) ← if endHeader then self.parseHeaders ctx else pure (self, ctx)
    return { self with
      isReady := self.state ≠ StateKind.idle ∧ endHeader ∧ (self.endStream ∨ endStream) }.accept ctx

/-- Conversion to `Window_Update.Size_Increment_Type`. -/
def sizeIncrementType (number : Int) : Except Exn Nat := naturalOfInt number

/-- The window update that opens the receive window of the stream again, with the stream after it. -/
def openStreamWindow (self : Stream) (ctx : Context) : Except Exn (List Frame × Stream) := do
  let maxFrameSize ← ctx.settings.maxFrameSize
  let limit ← positive maxFrameSize
  if self.flowReceiveWindow < limit ∧ self.uploadState ≠ .rejected then do
    let window ← sizeIncrementType self.flowReceiveWindow
    return ([Frame.createWindowUpdate self.id (naturalLast - window)],
      { self with flowReceiveWindow := naturalLast })
  else
    return ([], self)

/-- The window update that opens the receive window of the connection again. -/
def openConnectionWindow (ctx : Context) : Except Exn (List Frame × Context) := do
  let maxFrameSize ← ctx.settings.maxFrameSize
  let limit ← positive maxFrameSize
  if ctx.settings.flowReceiveWindow < limit then do
    let window ← sizeIncrementType ctx.settings.flowReceiveWindow
    let increment ← positive (naturalLast - window)
    return ([Frame.createWindowUpdate 0 increment],
      { ctx with settings := ctx.settings.updateFlowReceiveWindow increment })
  else
    return ([], ctx)

/-- The length of the body received so far contradicts the content length. -/
def contentLengthError (self : Stream) (endStream : Bool) : Bool :=
  self.contentLength ≠ -1 ∧
    if endStream then
      (self.bytesReceived : Int) ≠ self.contentLength
    else
      self.contentLength < (self.bytesReceived : Int)

/-- `K_Data` in `Received_Frame`, with the frames it sends. -/
def receivedData (self : Stream) (ctx : Context) (frame : Frame) (content : Octets) :
    List Frame × Except Exn Received :=
  let endStream := frame.hasFlag endStreamFlag
  match frame.payloadLength content with
  | .error exn => ([], .error exn)
  | .ok length =>
      let self := { self with
        dFrames := self.dFrames ++ [frame]
        bytesReceived := self.bytesReceived + length
        flowReceiveWindow := self.flowReceiveWindow - length }
      let ctx := { ctx with settings := ctx.settings.updateFlowReceiveWindow (-length) }
      match self.openStreamWindow ctx with
      | .error exn => ([], .error exn)
      | .ok (first, self) =>
          match openConnectionWindow ctx with
          | .error exn => (first, .error exn)
          | .ok (second, ctx) =>
              (first ++ second, .ok <|
                if self.contentLengthError endStream then
                  self.refuse ctx .protocolError .contentLength
                else
                  { self with isReady := self.state ≠ StateKind.idle ∧ endStream }.accept ctx)

/-- The part of `Received_Frame` that depends on the content of the frame. -/
def receivedContent (self : Stream) (ctx : Context) (frame : Frame) :
    List Frame × Except Exn Received :=
  match frame.payload with
  | .priority priority => ([], .ok (self.receivedPriority ctx priority))
  | .windowUpdate increment => ([], .ok (self.receivedWindowUpdate ctx increment))
  | .headers content => ([], self.receivedHeaders ctx frame content)
  | .continuation _ => ([], self.receivedContinuation ctx frame)
  | .data content => self.receivedData ctx frame content
  | _ => ([], .ok (self.accept ctx))

/-- `Received_Frame`, with the frames it sends. -/
def receivedFrame (self : Stream) (ctx : Context) (frame : Frame) :
    List Frame × Except Exn Received :=
  let self := { self with dataFlow := .receiving, errorDetail := .noDetails }
  if self.id ≠ 0 ∧ self.id % 2 = 0 then
    ([], .ok (self.refuse ctx .protocolError .streamIdEven))
  else
    match self.receiveState frame with
    | .error (error, info) => ([], .ok (self.refuse ctx error info))
    | .ok state =>
        let self := { self with state }
        if self.hFrames.getLast?.map Frame.kind = some .continuation ∧
            frame.kind ≠ .continuation then
          ([], .ok (self.refuse ctx .protocolError .noContinuation))
        else
          self.receivedContent ctx frame

/-! ## The receive windows -/

section ReceiveWindow

variable {self : Stream} {ctx : Context} {limit : Nat}

theorem maxFrameSize_lt {settings : Connection} (frame_size : settings.maxFrameSize = .ok limit) :
    limit < naturalLast := by
  rw [Connection.maxFrameSize] at frame_size
  split at frame_size
  · cases frame_size
    simp only [naturalLast]
    omega
  · cases frame_size

theorem naturalOfInt_nonneg {number : Int} (nonneg : 0 ≤ number) (small : number ≤ naturalLast) :
    naturalOfInt number = .ok number.toNat := if_pos ⟨nonneg, small⟩

theorem naturalOfInt_neg {number : Int} (negative : number < 0) :
    naturalOfInt number = .error .constraintError := if_neg (by omega)

/-- The receive window of the stream is opened to its maximum, unless it is negative. -/
theorem openStreamWindow_eq (frame_size : ctx.settings.maxFrameSize = .ok limit)
    (limit_pos : 1 ≤ limit) :
    self.openStreamWindow ctx =
      if self.flowReceiveWindow < limit ∧ self.uploadState ≠ .rejected then
        if 0 ≤ self.flowReceiveWindow then
          .ok ([Frame.createWindowUpdate self.id (naturalLast - self.flowReceiveWindow.toNat)],
            { self with flowReceiveWindow := naturalLast })
        else
          .error .constraintError
      else
        .ok ([], self) := by
  have limit_lt := maxFrameSize_lt frame_size
  rw [openStreamWindow, frame_size, ok_bind, positive_of_le limit_pos limit_lt.le, ok_bind]
  split
  · next low =>
      split
      · next nonneg => rw [sizeIncrementType, naturalOfInt_nonneg nonneg (by omega)]; rfl
      · next negative => rw [sizeIncrementType, naturalOfInt_neg (by omega)]; rfl
  · rfl

/-- The receive window of the connection is opened to its maximum, unless it is negative. -/
theorem openConnectionWindow_eq (frame_size : ctx.settings.maxFrameSize = .ok limit)
    (limit_pos : 1 ≤ limit) :
    openConnectionWindow ctx =
      if ctx.settings.flowReceiveWindow < limit then
        if 0 ≤ ctx.settings.flowReceiveWindow then
          .ok ([Frame.createWindowUpdate 0 (naturalLast - ctx.settings.flowReceiveWindow.toNat)],
            { ctx with settings := { ctx.settings with flowReceiveWindow := naturalLast } })
        else
          .error .constraintError
      else
        .ok ([], ctx) := by
  have limit_lt := maxFrameSize_lt frame_size
  rw [openConnectionWindow, frame_size, ok_bind, positive_of_le limit_pos limit_lt.le, ok_bind]
  split
  · next low =>
      split
      · next nonneg =>
          have filled : ctx.settings.flowReceiveWindow +
              (naturalLast - ctx.settings.flowReceiveWindow.toNat : Nat) = naturalLast := by omega
          rw [sizeIncrementType, naturalOfInt_nonneg nonneg (by omega), ok_bind,
            positive_of_le (by omega) (by omega), ok_bind]
          simp only [Connection.updateFlowReceiveWindow, filled, pure_eq_ok]
      · next negative => rw [sizeIncrementType, naturalOfInt_neg (by omega)]; rfl
  · rfl

end ReceiveWindow

/-! ## Sent frames -/

/-- The stream state after a sent frame. -/
def sendState (self : Stream) (frame : Frame) : Except Exn StateKind :=
  let endHeader := frame.hasFlag endHeadersFlag
  let endStream := frame.hasFlag endStreamFlag
  match self.state with
  | .idle =>
      match frame.kind with
      | .headers => .ok (if endStream ∧ endHeader then .halfClosedRemote else .opened)
      | .pushPromise => .ok .reservedLocal
      | .priority => .ok .idle
      | _ => raiseProtocolError .protocolError "stream state error"
  | .opened =>
      match frame.kind with
      | .rstStream => .ok .closed
      | .continuation => .ok (if endHeader then .halfClosedLocal else .opened)
      | _ => .ok (if endStream then .halfClosedLocal else .opened)
  | .reservedLocal =>
      match frame.kind with
      | .rstStream => .ok .closed
      | .headers => .ok .halfClosedRemote
      | _ => .ok .reservedLocal
  | .reservedRemote =>
      match frame.kind with
      | .rstStream => .ok .closed
      | .priority => .ok .reservedRemote
      | .headers => .ok .reservedRemote
      | _ => raiseProtocolError .protocolError "stream state error"
  | .halfClosedLocal =>
      match frame.kind with
      | .rstStream => .ok .closed
      | _ => .ok .halfClosedLocal
  | .halfClosedRemote =>
      match frame.kind with
      | .rstStream => .ok .closed
      | _ => .ok (if endStream then .closed else .halfClosedRemote)
  | .closed => .ok .closed

/-- `Send_Frame`, after the frame has been written. -/
def sendFrame (self : Stream) (frame : Frame) : Except Exn Stream := do
  let state ← self.sendState frame
  if frame.kind = .data then
    return { self with
      dataFlow := .sending
      state
      flowSendWindow := self.flowSendWindow - frame.length
      bytesSent := self.bytesSent + frame.length }
  else
    return { self with dataFlow := .sending, state }

/-- `Update_Flow_Control_Window`. -/
def updateFlowControlWindow (self : Stream) (increment : Int) : Stream :=
  { self with flowSendWindow := self.flowSendWindow + increment }

/-- `Upload_Decision`. -/
def uploadDecision (self : Stream) (allow : Bool) : Stream :=
  { self with uploadState := if allow then .accepted else .rejected }

end Stream
end Http2
end AdaWebServer

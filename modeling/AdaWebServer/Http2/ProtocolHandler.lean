import AdaWebServer.Foundations.Execution
import AdaWebServer.Http2.AcceptedFrame
import AdaWebServer.Http2.Message
import AdaWebServer.Http2.ValidateHeaders

/-!
# The protocol handler

`Protocol_Handler_V2`, the loop of the server on one connection.  Each turn of the loop puts the
first deferred message in frames, sends the frames that wait as long as no input is pending, and
reads and handles one frame.  The socket is the octets that have arrived and are not read yet, and
a trace keeps what has been received and sent.
-/

namespace AdaWebServer
namespace Http2

open Resources

/-! ## Requests -/

/-- The error of `Validate_Headers` for a list of headers. -/
def headersError (headers : Hpack.Headers) : ErrorCode :=
  (Validation.run (headers.map fun header => ⟨header.1, header.2⟩)).1

/-- What the user code and the server make of a request: the data of a message, with what the loop
asks of the response. -/
structure Response (Resource : Type) where
  mode : ResponseMode
  ranges : Text
  headers : Hpack.Headers
  mBody : Option Resource
  keepAlive : Bool
  isContinue : Bool

/-- `Message.Create`. -/
def Response.toMessage {Resource : Type} (self : Response Resource) (streamId : StreamId) :
    Message Resource where
  mode := self.mode
  ranges := self.ranges
  streamId := streamId
  headers := self.headers
  sent := 0
  hSent := false
  bSent := false
  mBody := self.mBody

/-- `Message.Is_Defined`. -/
def Message.isDefined {Resource : Type} (self : Message Resource) : Bool := self.mode ≠ .noData

/-! ## The state of the loop -/

/-- Where the handler is. -/
inductive Phase where
  /-- Before the loop. -/
  | start
  /-- At the head of `For_Every_Frame`. -/
  | head
  /-- In the loop that sends the frames that wait, or behind it. -/
  | sending
  /-- The socket has been given back to the acceptor. -/
  | parked
  /-- The handler has been left, and the socket is shut down. -/
  | closed
  deriving DecidableEq, Repr

/-- What has happened on the connection. -/
inductive Entry where
  /-- A frame has been read. -/
  | received (frame : Frame)
  /-- A stream has been created. -/
  | opened (streamId : StreamId)
  /-- `To_Frames` has made frames. -/
  | framed (frames : List Frame)
  /-- A frame has been written to the socket. -/
  | sent (frame : Frame)
  deriving DecidableEq

/-- The local variables of `Protocol_Handler_V2`, with the socket and the trace. -/
structure ProtocolHandler (Resource : Type) where
  phase : Phase
  ctx : Context
  /-- The message of the answer to an unexpected exception. -/
  errorBody : Text
  /-- `S`. -/
  streams : StreamId → Option Stream
  deferredMessages : List (Message Resource)
  answers : List Frame
  h2cAnswer : List Frame
  willClose : Bool
  maxStream : Nat
  streamOpened : Nat
  lastSid : StreamId
  inHeader : Bool
  /-- The octets that have arrived and have not been read. -/
  input : Octets
  /-- The newest entry first. -/
  trace : List Entry

/-- What may happen next. -/
inductive Event (Resource : Type) where
  /-- A connection starts, with its preface still to be read or not. -/
  | connect (checkPreface : Bool)
  /-- A connection is upgraded by a request with settings. -/
  | upgrade (values : SettingsSet) (answer : Except Exn (Response Resource))
  | arrive (octets : Octets)
  /-- The first deferred message is looked at. -/
  | turn
  /-- The first frame that waits is sent. -/
  | write
  /-- A frame is read and handled.  A request in it gets the answer; the acceptor may be crowded. -/
  | receive (answer : Except Exn (Response Resource)) (crowded : Bool)
  /-- The loop is left. -/
  | leave
  /-- The acceptor has seen new data on the socket. -/
  | resume
  /-- The socket fails. -/
  | fail

namespace ProtocolHandler

variable {Resource : Type}

/-- A new connection. -/
def create (config : Config) (stack : Nat) (errorBody : Text) : ProtocolHandler Resource where
  phase := .start
  ctx := .create config stack
  errorBody := errorBody
  streams := fun _ => none
  deferredMessages := []
  answers := []
  h2cAnswer := []
  willClose := false
  maxStream := 0
  streamOpened := 0
  lastSid := 0
  inHeader := false
  input := []
  trace := []

/-- `Send`. -/
def send (self : ProtocolHandler Resource) (frame : Frame) : ProtocolHandler Resource :=
  { self with trace := .sent frame :: self.trace }

/-- Frames are sent one after the other. -/
def sendAll (self : ProtocolHandler Resource) (frames : List Frame) : ProtocolHandler Resource :=
  { self with trace := (frames.map Entry.sent).reverse ++ self.trace }

/-- The handler is left. -/
def close (self : ProtocolHandler Resource) : ProtocolHandler Resource :=
  { self with phase := .closed, willClose := true }

/-- `Go_Away`, after which the loop is left. -/
def goAway (self : ProtocolHandler Resource) (error : ErrorCode) : ProtocolHandler Resource :=
  (self.send (.createGoAway self.lastSid error (text "S200") [])).close

/-- The exception handlers. -/
def raised (self : ProtocolHandler Resource) : Exn → ProtocolHandler Resource
  | .socketError => self.close
  | .protocolError _ => self.close
  | .refused code message =>
      (self.send (.createGoAway 1 .refusedStream (text code) (text message))).close
  | _ => (self.send (.createGoAway 1 .internalError (text "S500") self.errorBody)).close

/-- The end of a turn of the loop. -/
def again (self : ProtocolHandler Resource) : ProtocolHandler Resource :=
  { self with
    phase := .head
    answers := self.answers ++ self.h2cAnswer
    h2cAnswer := [] }

/-- The part of the handler is left by an exception. -/
def outcome (self : ProtocolHandler Resource) :
    Except Exn (ProtocolHandler Resource) → ProtocolHandler Resource
  | .ok next => next
  | .error exn => self.raised exn

/-- Record a stream. -/
def setStream (self : ProtocolHandler Resource) (stream : Stream) : ProtocolHandler Resource :=
  { self with streams := Function.update self.streams stream.id (some stream) }

/-! ## Messages -/

/-- The procedure `Handle_Message`. -/
def handleMessage (self : ProtocolHandler Resource) (stream : Stream)
    (answer : Except Exn (Response Resource)) (crowded : Bool) :
    Except Exn (ProtocolHandler Resource) :=
  if headersError stream.headers ≠ .noError then
    raiseProtocolError (headersError stream.headers) "headers validity check fails"
  else do
    let response ← answer
    let oversize := stream.uploadState = .oversize
    let undefined := oversize ∧ response.isContinue
    let message := response.toMessage stream.id
    let defined := ¬ undefined ∧ message.isDefined
    let stream := if undefined then stream else { stream with keepAlive := response.keepAlive }
    let stream := if oversize then stream.uploadDecision (¬ defined) else stream
    return { self.setStream stream with
      willClose := crowded
      deferredMessages :=
        if defined then self.deferredMessages ++ [message] else self.deferredMessages }

/-- The function `Handle_Message`, after the body of an accepted upload has been handled. -/
def handleUpload (self : ProtocolHandler Resource) (stream : Stream)
    (answer : Except Exn (Response Resource)) : Except Exn (ProtocolHandler Resource) := do
  let response ← answer
  return { self.setStream { stream with keepAlive := response.keepAlive } with
    deferredMessages := self.deferredMessages ++ [response.toMessage stream.id] }

/-- What follows an accepted frame: a message that is ready, or a body that is too large. -/
def respond (self : ProtocolHandler Resource) (stream : Stream) (prevState : StateKind)
    (answer : Except Exn (Response Resource)) (crowded : Bool) :
    Except Exn (ProtocolHandler Resource) :=
  if stream.isReady ∧ prevState.pos < StateKind.halfClosedRemote.pos then
    if stream.uploadState = .accepted then
      self.handleUpload stream answer
    else if stream.uploadState ≠ .rejected then
      self.handleMessage stream answer crowded
    else
      .ok self
  else if stream.uploadState = .oversize then
    self.handleMessage stream answer crowded
  else
    .ok self

/-! ## Received frames -/

/-- `Handle_Control_Frame`, on the streams. -/
def addFlowControl (streams : StreamId → Option Stream) (addFC : Int) :
    StreamId → Option Stream :=
  fun id => (streams id).map fun stream =>
    if addFC ≠ 0 ∧ Connection.flowControlWindowValid stream.flowSendWindow addFC then
      stream.updateFlowControlWindow addFC
    else
      stream

/-- A frame of the connection. -/
def receiveControl (self : ProtocolHandler Resource) (frame : Frame) : ProtocolHandler Resource :=
  match self.ctx.settings.handleControlFrame frame self.answers with
  | .error exn => self.raised exn
  | .ok controlled =>
      let self := { self with
        ctx := { self.ctx with settings := controlled.settings }
        answers := controlled.answers
        streams := addFlowControl self.streams controlled.addFlowControl }
      if controlled.error ≠ .noError then self.goAway controlled.error else self.again

/-- The stream of a frame, created if need be, unless too many streams were opened. -/
def admission (self : ProtocolHandler Resource) (frame : Frame) :
    Option (ProtocolHandler Resource × Stream) :=
  match self.streams frame.streamId with
  | some stream => some (self, stream)
  | none =>
      if (frame.kind ≠ .priority ∧ frame.streamId < self.lastSid) ∨
          self.maxStream ≤ self.streamOpened then
        none
      else
        let stream := Stream.create frame.streamId self.ctx.settings.initialWindowSize
        some ({ self.setStream stream with
          lastSid := if frame.kind ≠ .priority then frame.streamId else self.lastSid
          streamOpened := self.streamOpened + 1
          trace := .opened frame.streamId :: self.trace }, stream)

/-- What follows `Received_Frame`. -/
def received (self : ProtocolHandler Resource) (prevState : StateKind)
    (answer : Except Exn (Response Resource)) (crowded : Bool) :
    Except Exn Stream.Received → ProtocolHandler Resource
  | .error exn => self.raised exn
  | .ok ⟨stream, ctx, error⟩ =>
      let self := { self.setStream stream with ctx }
      if error = .flowControlError then
        { self.send (.createRstStream error stream.id) with phase := .closed }
      else if error ≠ .noError then
        self.goAway error
      else
        self.outcome ((self.respond stream prevState answer crowded).map again)

/-- A frame of a stream. -/
def receiveStream (self : ProtocolHandler Resource) (frame : Frame)
    (answer : Except Exn (Response Resource)) (crowded : Bool) : ProtocolHandler Resource :=
  let self := { self with
    inHeader := (frame.kind = Kind.headers ∨ frame.kind = Kind.continuation) ∧
      ¬ frame.hasFlag endHeadersFlag }
  match self.admission frame with
  | none => self.goAway .protocolError
  | some (self, stream) =>
      let (updates, result) := stream.receivedFrame self.ctx frame
      (self.sendAll updates).received stream.state answer crowded result

/-- A frame that has been read is handled by its kind. -/
def dispatch (self : ProtocolHandler Resource) (frame : Frame)
    (answer : Except Exn (Response Resource)) (crowded : Bool) : ProtocolHandler Resource :=
  match frame.payload with
  | .unread .invalid =>
      if self.inHeader then
        self.goAway .protocolError
      else
        (self.send (.createPing Frame.defaultPingData endStreamFlag)).again
  | .unread .settings => self.raised .constraintError
  | .settings none => (self.send (.createPing Frame.defaultPingData endStreamFlag)).again
  | _ =>
      if frame.kind = .pushPromise then
        self.goAway .protocolError
      else if ¬ frame.isDefined then
        self.goAway .protocolError
      else
        match frame.validate self.ctx.settings with
        | .error exn => self.raised exn
        | .ok error =>
            if error ≠ .noError then
              self.goAway error
            else if frame.kind = .goAway then
              self.close
            else if frame.streamId = 0 then
              self.receiveControl frame
            else
              self.receiveStream frame answer crowded

/-- A frame is taken from the socket. -/
def take (self : ProtocolHandler Resource) (frame : Frame) (rest : Octets) :
    ProtocolHandler Resource :=
  { self with input := rest, trace := .received frame :: self.trace }

/-- Read a frame and handle it.  As long as the frame has not arrived completely, reading waits. -/
def receive (self : ProtocolHandler Resource) (answer : Except Exn (Response Resource))
    (crowded : Bool) : Except Unit (ProtocolHandler Resource) :=
  match Frame.read self.ctx.settings self.input with
  | .error .socketError => .error ()
  | .error exn => .ok (self.raised exn)
  | .ok (frame, rest) => .ok ((self.take frame rest).dispatch frame answer crowded)

/-! ## Sent frames -/

/-- The frame that waits first may be sent now: a DATA frame needs both windows. -/
def CanSend (self : ProtocolHandler Resource) (frame : Frame) (stream : Stream) : Prop :=
  frame.kind = .data →
    (frame.length : Int) ≤ min self.ctx.settings.flowSendWindow stream.flowSendWindow

instance (self : ProtocolHandler Resource) (frame : Frame) (stream : Stream) :
    Decidable (self.CanSend frame stream) :=
  inferInstanceAs (Decidable (_ → _))

/-- The connection window after a sent frame. -/
def charged (self : Connection) (frame : Frame) : Connection :=
  if frame.kind = .data then self.updateFlowControlWindow (-(frame.length : Int)) else self

/-- One turn of the loop that sends the frames that wait. -/
def write (self : ProtocolHandler Resource) : Except Unit (ProtocolHandler Resource) :=
  match self.answers with
  | [] => .error ()
  | frame :: answers =>
      if self.input ≠ [] then
        .error ()
      else if frame.streamId = 0 then
        -- behind a GOAWAY frame the stream is looked up through a null access
        if frame.kind = .goAway then
          .ok ((self.send frame).raised .constraintError)
        else
          .ok { self.send frame with answers }
      else
        match self.streams frame.streamId with
        | none => .ok (self.raised .constraintError)
        | some stream =>
            if self.CanSend frame stream then
              match stream.sendFrame frame with
              | .error exn => .ok ((self.send frame).raised exn)
              | .ok stream =>
                  let self := { (self.send frame).setStream stream with
                    ctx := { self.ctx with settings := charged self.ctx.settings frame }
                    answers }
                  .ok (if frame.kind = .goAway then
                    { self with streams := Function.update self.streams frame.streamId none }
                  else
                    self)
            else
              .error ()

section Framing

variable [StreamType Resource]

/-- The first deferred message is put in frames. -/
def frameMessage (self : ProtocolHandler Resource) (message : Message Resource)
    (deferredMessages : List (Message Resource)) (stream : Stream) :
    Except Exn (ProtocolHandler Resource) := do
  let (frames, message, tabEnc) ← message.toFrames self.ctx stream
  let self := { self with
    ctx := { self.ctx with tabEnc }
    answers := self.answers ++ frames
    trace := .framed frames :: self.trace }
  if message.moreFrames then
    return { self with deferredMessages := message :: deferredMessages }
  else do
    let streamOpened ← naturalSub self.streamOpened 1
    return { self with
      deferredMessages
      streamOpened
      willClose := self.willClose || !stream.keepAlive }

/-- A deferred message without a body, or one that both windows allow to go on, can be framed. -/
def CanFrame (self : ProtocolHandler Resource) (message : Message Resource) (stream : Stream) :
    Prop :=
  (0 < stream.flowSendWindow ∧ 0 < self.ctx.settings.flowSendWindow) ∨ ¬ message.hasBody

instance (self : ProtocolHandler Resource) (message : Message Resource) (stream : Stream) :
    Decidable (self.CanFrame message stream) :=
  inferInstanceAs (Decidable (_ ∨ _))

/-- The part of the loop that looks at the deferred messages. -/
def turn (self : ProtocolHandler Resource) : ProtocolHandler Resource :=
  let self := { self with phase := .sending }
  match self.deferredMessages with
  | [] => self
  | message :: deferredMessages =>
      match self.streams message.streamId with
      | none => self.raised .constraintError
      | some stream =>
          if self.CanFrame message stream then
            self.outcome (self.frameMessage message deferredMessages stream)
          else
            self

/-! ## The start -/

/-- `Client_Connection_Preface`. -/
def clientConnectionPreface : Octets := text "PRI * HTTP/2.0\r\n\r\nSM\r\n\r\n"

/-- The preface is read and compared. -/
def readPreface (self : ProtocolHandler Resource) : Except Unit (ProtocolHandler Resource) :=
  if self.input.length < clientConnectionPreface.length then
    .error ()
  else
    let preface := self.input.take clientConnectionPreface.length
    let self := { self with input := self.input.drop clientConnectionPreface.length }
    if preface = clientConnectionPreface then
      .ok self
    else
      .ok (self.send (.createGoAway 0 .protocolError (text "S200") [])).close

/-- `Queue_Settings_Frame`, and the loop. -/
def begin (self : ProtocolHandler Resource) (settings : Connection) : ProtocolHandler Resource :=
  { self.send (.createSettings (toSet self.ctx.config) false) with
    ctx := { self.ctx with settings }
    maxStream := settings.maxConcurrentStreams
    phase := .head }

/-- `Set` with the first frame on the socket. -/
def firstSettings (self : ProtocolHandler Resource) : Except Unit (ProtocolHandler Resource) :=
  match Frame.read self.ctx.settings self.input with
  | .error .socketError => .error ()
  | .error exn => .ok (self.raised exn)
  | .ok (frame, rest) =>
      let self := self.take frame rest
      match frame.payload with
      | .settings (some values) =>
          match self.ctx.settings.set values with
          | .ok settings => .ok (self.begin settings)
          | .error exn => .ok (self.raised exn)
      | .settings none => .ok (self.raised .constraintError)
      | _ => .ok (self.raised (.protocolError ("Wrong frame type " ++ frame.kind.image)))

/-- The answer to the request that has upgraded the connection. -/
def answerUpgrade (self : ProtocolHandler Resource) (answer : Except Exn (Response Resource)) :
    Except Exn (ProtocolHandler Resource) := do
  let stream := Stream.create 1 self.ctx.settings.initialWindowSize
  let response ← answer
  let (frames, _, tabEnc) ← (response.toMessage 1).toFrames self.ctx stream
  return { self.setStream { stream with keepAlive := response.keepAlive } with
    ctx := { self.ctx with tabEnc }
    streamOpened := self.streamOpened + 1
    h2cAnswer := frames
    trace := .framed frames :: .opened 1 :: self.trace }

/-- A connection starts. -/
def connect (self : ProtocolHandler Resource) (checkPreface : Bool) :
    Except Unit (ProtocolHandler Resource) := do
  let self ← if checkPreface then self.readPreface else .ok self
  if self.phase = .closed then return self else self.firstSettings

/-- A connection is upgraded. -/
def upgrade (self : ProtocolHandler Resource) (values : SettingsSet)
    (answer : Except Exn (Response Resource)) : Except Unit (ProtocolHandler Resource) := do
  let self ← self.readPreface
  if self.phase = .closed then
    return self
  else
    match self.ctx.settings.set values with
    | .error exn => return self.raised exn
    | .ok settings =>
        let self := self.begin settings
        return self.outcome (self.answerUpgrade answer)

/-! ## The whole loop -/

/-- Nothing is left to be done. -/
def Idle (self : ProtocolHandler Resource) : Prop :=
  self.streamOpened = 0 ∧ self.deferredMessages.isEmpty ∧ self.answers.isEmpty

instance (self : ProtocolHandler Resource) : Decidable self.Idle :=
  inferInstanceAs (Decidable (_ ∧ _))

/-- The loop is left, or the socket given back to the acceptor. -/
def leave (self : ProtocolHandler Resource) : Except Unit (ProtocolHandler Resource) :=
  if self.Idle then
    if self.willClose then
      .ok { self with phase := .closed }
    else if self.input = [] then
      .ok { self with phase := .parked }
    else
      .error ()
  else
    .error ()

/-- The handler is called again for the connection. -/
def resume (self : ProtocolHandler Resource) : ProtocolHandler Resource :=
  { self with
    phase := .head
    streams := fun _ => none
    deferredMessages := []
    answers := []
    h2cAnswer := []
    willClose := false
    maxStream := self.ctx.settings.maxConcurrentStreams
    streamOpened := 0
    lastSid := 0
    inHeader := false }

/-- What an event leads to, in the phases in which it may happen. -/
def next (self : ProtocolHandler Resource) (event : Event Resource) :
    Except Unit (ProtocolHandler Resource) :=
  match event, self.phase with
  | .connect checkPreface, .start => self.connect checkPreface
  | .upgrade values answer, .start => self.upgrade values answer
  | .arrive octets, _ => .ok { self with input := self.input ++ octets }
  | .turn, .head => .ok self.turn
  | .write, .sending => self.write
  | .receive answer crowded, .sending =>
      if self.Idle ∧ self.willClose then .error () else self.receive answer crowded
  | .leave, .sending => self.leave
  | .resume, .parked => .ok self.resume
  | .fail, .start => .ok self.close
  | .fail, .head => .ok self.close
  | .fail, .sending => .ok self.close
  | _, _ => .error ()

end Framing

end ProtocolHandler
end Http2
end AdaWebServer

import AdaWebServer.Http2.ProtocolHandler
import AdaWebServer.Http2.RequestBody

/-!
# The client

The HTTP/2 part of `AWS.Client.HTTP_Utils`.  A connection starts with its preface and the settings
of the server.  A request is sent in as many parts as the windows allow, with a stream of its own,
and the response is received with a stream that is created anew by its first frame.
-/

namespace AdaWebServer
namespace Http2

open Resources

/-! ## Responses -/

/-- The images of `Messages.Status_Code`. -/
def statusCodes : List Text :=
  ["100", "101", "102",
    "200", "201", "202", "203", "204", "205", "206", "207", "208", "226",
    "300", "301", "302", "303", "304", "305", "306", "307", "308",
    "400", "401", "402", "403", "404", "405", "406", "407", "408", "409",
    "410", "411", "412", "413", "414", "415", "416", "417", "418", "421", "422", "423",
    "424", "425", "426", "428", "429", "431", "451",
    "500", "501", "502", "503", "504", "505", "506", "507", "508", "510", "511", "520",
    "521", "522", "523", "524", "525", "526"].map text

/-- `Get_Status_Code`: the status code of a token, that of its class, or 500. -/
def getStatusCode (token : Text) : Except Exn Text :=
  match token with
  | [] => .error .constraintError
  | first :: _ =>
      .ok (if token ∈ statusCodes then token
        else if first :: text "00" ∈ statusCodes then first :: text "00"
        else text "500")

/-- What a request leads to: the response of the server, or that made of a GOAWAY frame. -/
inductive ClientResult where
  | response (status : Text) (headers : Hpack.Headers) (body : Octets)
  | goAway (content : Octets)
  deriving DecidableEq

/-- The answer of `Get_H2_Response` once the message on the stream is ready. -/
def Stream.response (self : Stream) : Except Exn ClientResult := do
  let status ← getStatusCode (getHeader self.headers (text ":status"))
  let body ← self.body
  return .response status self.headers body

/-- `GoAway.Error`. -/
def goAwayError (content : Octets) : Except Exn Nat :=
  if content.length < 8 then
    .error .storageError
  else
    let code := bigEndian ((content.drop 4).take 4)
    if code ≤ ErrorCode.http11Required.pos then .ok code else .error .constraintError

/-! ## The connection -/

/-- Where the client is. -/
inductive ClientPhase (Resource : Type) where
  /-- The socket is connected. -/
  | start
  /-- `Send_H2_Connection_Preface` reads the settings of the server. -/
  | preface
  /-- No request has been sent. -/
  | opened
  /-- At the head of `All_Frames` in `Send_H2_Request`. -/
  | sending (request : Message Resource)
  /-- In the loop of `Send_H2_Request` that waits for the windows. -/
  | blocked (request : Message Resource)
  /-- In the loop of `Get_H2_Response`. -/
  | waiting
  /-- The request has been answered. -/
  | answered (result : ClientResult)
  /-- An exception has left the request. -/
  | raised (exn : Exn)

/-- `HTTP_Connection`, with the stream of the request under way, the socket and the trace. -/
structure HttpConnection (Resource : Type) where
  phase : ClientPhase Resource
  /-- `Enc_Table`, `Dec_Table` and `H2_Connection` are in the context. -/
  ctx : Context
  h2StreamId : StreamId
  /-- The stream, unless it is `Undefined`. -/
  stream : Option Stream
  /-- The octets that have arrived and have not been read. -/
  input : Octets
  /-- The newest entry first. -/
  trace : List Entry

/-- What may happen next. -/
inductive ClientEvent (Resource : Type) where
  /-- The preface and the settings of the client are sent. -/
  | preface
  /-- A request is made, with its headers and its body. -/
  | request (headers : Hpack.Headers) (body : Option Resource)
  | arrive (octets : Octets)
  /-- The next frames of the request are made and sent. -/
  | turn
  /-- A frame is read and handled. -/
  | receive

/-- `Get_Settings`. -/
def getSettings (config : Config) : SettingsSet :=
  [⟨.headerTableSize, UInt32.ofNat config.headerTableSize⟩,
    ⟨.enablePush, 0⟩,
    ⟨.maxConcurrentStreams, UInt32.ofNat config.maxConcurrentStreams⟩,
    ⟨.initialWindowSize, UInt32.ofNat config.initialWindowSize⟩,
    ⟨.maxFrameSize, UInt32.ofNat config.maxFrameSize⟩,
    ⟨.maxHeaderListSize, UInt32.ofNat config.maxHeaderListSize⟩]

/-- The part of `Received_Frame` that depends on the content, for a frame of which only the header
has been read: the views of its content fail. -/
def Stream.receivedUnread (self : Stream) (ctx : Context) (frame : Frame) (kind : Kind) :
    Except Exn Stream.Received :=
  match kind with
  | .data => .error .constraintError
  | .priority =>
      if self.inHeaderBlock then .ok (self.refuse ctx .protocolError .priority)
      else .error .constraintError
  | .windowUpdate =>
      if self.inHeaderBlock then .ok (self.refuse ctx .protocolError .windowUpdate)
      else .error .constraintError
  | .headers =>
      if frame.hasFlag priorityFlag ∧ (frame.hasFlag endStreamFlag ∨ ¬ self.headerFound) then
        .error .constraintError
      else
        self.receivedHeaders ctx frame []
  | .continuation => self.receivedContinuation ctx frame
  | _ => .ok (self.accept ctx)

namespace HttpConnection

variable {Resource : Type}

/-- A connection that has just been opened. -/
def create (config : Config) (stack : Nat) : HttpConnection Resource where
  phase := .start
  ctx := { Context.create config stack with
    settings :=
      match Connection.initial.set (getSettings config) with
      | .ok settings => settings
      | .error _ => Connection.initial }
  h2StreamId := 1
  stream := none
  input := []
  trace := []

/-- An exception leaves the request. -/
def raise (self : HttpConnection Resource) (exn : Exn) : HttpConnection Resource :=
  { self with phase := .raised exn }

/-- The request has been left by an exception. -/
def isRaised (self : HttpConnection Resource) : Bool :=
  match self.phase with
  | .raised _ => true
  | _ => false

/-! ## Frames -/

/-- `Stream.Send_Frame`; an undefined stream has no socket. -/
def sendFrame (self : HttpConnection Resource) (frame : Frame) : HttpConnection Resource :=
  match self.stream with
  | none => self.raise .constraintError
  | some stream =>
      let self := { self with trace := .sent frame :: self.trace }
      match stream.sendFrame frame with
      | .error exn => self.raise exn
      | .ok stream => { self with stream := some stream }

/-- The loop on the answers in `Get_H2_Frame`. -/
def sendAnswers (self : HttpConnection Resource) : List Frame → HttpConnection Resource
  | [] => self
  | frame :: frames =>
      let self := self.sendFrame frame
      if self.isRaised then self else self.sendAnswers frames

/-- The loop on the frames in `Send_H2_Request`. -/
def sendFrames (self : HttpConnection Resource) : List Frame → HttpConnection Resource
  | [] => self
  | frame :: frames =>
      let self := self.sendFrame frame
      if self.isRaised then
        self
      else
        { self with ctx := { self.ctx with
            settings := ProtocolHandler.charged self.ctx.settings frame } }.sendFrames frames

/-- A frame is taken from the socket. -/
def take (self : HttpConnection Resource) (frame : Frame) (rest : Octets) :
    HttpConnection Resource :=
  { self with input := rest, trace := .received frame :: self.trace }

/-- A frame of the connection other than GOAWAY. -/
def receiveControl (self : HttpConnection Resource) (frame : Frame) : HttpConnection Resource :=
  match self.ctx.settings.handleControlFrame frame [] with
  | .error exn => self.raise exn
  | .ok controlled =>
      { self with
        ctx := { self.ctx with settings := controlled.settings }
        stream := self.stream.map fun stream : Stream =>
          if controlled.addFlowControl ≠ 0 ∧
              Connection.flowControlWindowValid stream.flowSendWindow controlled.addFlowControl then
            stream.updateFlowControlWindow controlled.addFlowControl
          else
            stream }.sendAnswers controlled.answers

/-- `Received_Frame` without a server: what the stream makes of a frame. -/
def streamReceives (stream : Stream) (ctx : Context) (frame : Frame) :
    List Frame × Except Exn Stream.Received :=
  match frame.payload, stream.receivedFrame ctx frame with
  | .unread kind, (updates, .ok ⟨stream, ctx, .noError⟩) =>
      (updates, stream.receivedUnread ctx frame kind)
  | _, result => result

/-- A frame of a stream; the error that it may lead to is ignored. -/
def receiveStream (self : HttpConnection Resource) (frame : Frame) : HttpConnection Resource :=
  let (stream, h2StreamId) :=
    match self.stream with
    | some stream => (stream, self.h2StreamId)
    | none => (Stream.create frame.streamId self.ctx.settings.initialWindowSize,
        max self.h2StreamId frame.streamId)
  let (updates, result) := streamReceives stream self.ctx frame
  let self := { self with
    h2StreamId
    trace := (updates.map Entry.sent).reverse ++ self.trace }
  match result with
  | .error exn => self.raise exn
  -- without a server no upload is oversize
  | .ok ⟨stream, ctx, _⟩ => { self with stream := some { stream with uploadState := .idle }, ctx }

/-- `Get_H2_Frame`, with the result that a GOAWAY frame leads to. -/
def getFrame (self : HttpConnection Resource) (frame : Frame) :
    HttpConnection Resource × Option ClientResult :=
  if frame.streamId = 0 then
    if frame.kind = .goAway then
      match frame.payload with
      | .goAway content =>
          match goAwayError content with
          | .error exn => (self.raise exn, none)
          | .ok code => (self, if code = 0 then none else some (.goAway content))
      | _ => (self.raise .constraintError, none)
    else
      (self.receiveControl frame, none)
  else
    (self.receiveStream frame, none)

/-! ## Requests -/

section Requests

/-- `Send_H2_Connection_Preface`, up to the reading of the settings. -/
def sendPreface (self : HttpConnection Resource) : HttpConnection Resource :=
  { self with
    phase := .preface
    trace := .sent (.createSettings (getSettings self.ctx.config) false) :: self.trace }

/-- The settings of the server. -/
def receiveSettings (self : HttpConnection Resource) (frame : Frame) : HttpConnection Resource :=
  if frame.kind ≠ .settings then
    self.raise .constraintError
  else
    match frame.payload with
    | .unread _ => self.raise .constraintError
    | _ =>
        if frame.hasFlag ackFlag then
          { self with phase := .opened }
        else
          match frame.values >>= self.ctx.settings.set with
          | .error exn => self.raise exn
          | .ok settings => { self with phase := .opened, ctx := { self.ctx with settings } }

/-- `Handle_H2_Request`, up to `Send_H2_Request`. -/
def startRequest (self : HttpConnection Resource) (headers : Hpack.Headers)
    (body : Option Resource) : HttpConnection Resource :=
  { self with
    phase := .sending
      { mode := .stream
        ranges := []
        streamId := self.h2StreamId
        headers
        sent := 0
        hSent := false
        bSent := false
        mBody := body }
    stream := some (.create self.h2StreamId self.ctx.settings.initialWindowSize)
    h2StreamId := self.h2StreamId + 2 }

/-- One turn of `All_Frames`, and the start of `Get_H2_Response` after the last one. -/
def sendRequest [StreamType Resource] (self : HttpConnection Resource)
    (request : Message Resource) : HttpConnection Resource :=
  match self.stream with
  | none => self.raise .constraintError
  | some stream =>
      match request.toFrames self.ctx stream with
      | .error exn => self.raise exn
      | .ok (frames, request, tabEnc) =>
          let self := { self with ctx := { self.ctx with tabEnc } }.sendFrames frames
          if self.isRaised then
            self
          else if request.moreFrames then
            { self with phase := .blocked request }
          else
            { self with phase := .waiting, stream := none }

/-- The loop of `Send_H2_Request` goes on waiting. -/
def IsBlocked (self : HttpConnection Resource) : Prop :=
  self.ctx.settings.flowSendWindow ≤ 0 ∨ ∀ stream ∈ self.stream, stream.flowSendWindow ≤ 0

instance (self : HttpConnection Resource) : Decidable self.IsBlocked :=
  inferInstanceAs (Decidable (_ ∨ _))

/-- What follows a frame in the loop of `Get_H2_Response`. -/
def checkResponse (self : HttpConnection Resource) (result : Option ClientResult) :
    HttpConnection Resource :=
  match result, self.stream with
  | some result, _ => { self with phase := .answered result }
  | none, none => self
  | none, some stream =>
      if stream.isReady then
        match stream.response with
        | .error exn => self.raise exn
        | .ok result => { self with phase := .answered result }
      else
        self

/-- A frame is read where the client waits for one. -/
def receive (self : HttpConnection Resource) : Except Unit (HttpConnection Resource) :=
  match Frame.read self.ctx.settings self.input with
  | .error .socketError => .error ()
  | .error exn => .ok (self.raise exn)
  | .ok (frame, rest) =>
      let self := self.take frame rest
      match self.phase with
      | .preface => .ok (self.receiveSettings frame)
      | .blocked _ => .ok (self.getFrame frame).1
      | .waiting =>
          let (self, result) := self.getFrame frame
          .ok (if self.isRaised then self else self.checkResponse result)
      | _ => .error ()

/-- What an event leads to, in the phases in which it may happen. -/
def next [StreamType Resource] (self : HttpConnection Resource) (event : ClientEvent Resource) :
    Except Unit (HttpConnection Resource) :=
  match event, self.phase with
  | .preface, .start => .ok self.sendPreface
  | .request headers body, .opened => .ok (self.startRequest headers body)
  | .request headers body, .answered _ => .ok (self.startRequest headers body)
  | .arrive octets, _ => .ok { self with input := self.input ++ octets }
  | .turn, .sending request => .ok (self.sendRequest request)
  | .turn, .blocked request => if self.IsBlocked then .error () else .ok (self.sendRequest request)
  | .receive, .preface => self.receive
  | .receive, .blocked _ => if self.IsBlocked then self.receive else .error ()
  | .receive, .waiting => self.receive
  | _, _ => .error ()

end Requests

/-! ## What is written -/

section Writing

variable {self : HttpConnection Resource} {frame : Frame} {frames : List Frame}

theorem sendFrame_trace (going_on : (self.sendFrame frame).isRaised = false) :
    (self.sendFrame frame).trace = .sent frame :: self.trace := by
  unfold sendFrame at going_on ⊢
  split
  · next absent =>
      rw [absent] at going_on
      cases going_on
  · next stream current =>
      rw [current] at going_on
      simp only at going_on ⊢
      split <;> rfl

theorem sendAnswers_trace (going_on : (self.sendAnswers frames).isRaised = false) :
    (self.sendAnswers frames).trace = (frames.map Entry.sent).reverse ++ self.trace := by
  induction frames generalizing self with
  | nil => rfl
  | cons frame frames ih =>
      rw [sendAnswers] at going_on ⊢
      split at going_on
      · next raised =>
          rw [raised] at going_on
          cases going_on
      · next sent =>
          rw [if_neg sent, ih going_on, sendFrame_trace (Bool.eq_false_iff.mpr sent)]
          simp

theorem sendFrames_trace (going_on : (self.sendFrames frames).isRaised = false) :
    (self.sendFrames frames).trace = (frames.map Entry.sent).reverse ++ self.trace := by
  induction frames generalizing self with
  | nil => rfl
  | cons frame frames ih =>
      rw [sendFrames] at going_on ⊢
      split at going_on
      · next raised =>
          rw [raised] at going_on
          cases going_on
      · next sent =>
          rw [if_neg sent, ih going_on, sendFrame_trace (Bool.eq_false_iff.mpr sent)]
          simp

theorem receiveControl_trace (going_on : (self.receiveControl frame).isRaised = false) :
    ∃ controlled, self.ctx.settings.handleControlFrame frame [] = .ok controlled ∧
      (self.receiveControl frame).trace =
        (controlled.answers.map Entry.sent).reverse ++ self.trace := by
  cases done : self.ctx.settings.handleControlFrame frame [] with
  | error exn =>
      rw [receiveControl, done] at going_on
      cases going_on
  | ok controlled =>
      rw [receiveControl, done] at going_on ⊢
      exact ⟨controlled, rfl, sendAnswers_trace going_on⟩

theorem streamReceives_updates (stream : Stream) (ctx : Context) (frame : Frame) :
    (streamReceives stream ctx frame).1 = (stream.receivedFrame ctx frame).1 := by
  unfold streamReceives
  split
  · next same => rw [same]
  · rfl

theorem receiveStream_trace (self : HttpConnection Resource) (frame : Frame) :
    ∃ (stream : Stream) (ctx : Context), (self.receiveStream frame).trace =
      ((stream.receivedFrame ctx frame).1.map Entry.sent).reverse ++ self.trace := by
  let stream : Stream := self.stream.getD
    (Stream.create frame.streamId self.ctx.settings.initialWindowSize)
  refine ⟨stream, self.ctx, ?_⟩
  rw [← streamReceives_updates]
  unfold receiveStream
  cases current : self.stream with
  | none =>
      simp only [stream, current, Option.getD_none]
      split <;> rfl
  | some earlier =>
      simp only [stream, current, Option.getD_some]
      split <;> rfl

end Writing

end HttpConnection
end Http2
end AdaWebServer

import AdaWebServer.WebSocket.Rfc6455

/-!
# Reading messages

`Read_Message` receives one buffer and hands a complete message to the application.  A reader
repeats it until the message is complete, and starts again with an empty message when the socket
has more to deliver.
-/

namespace AdaWebServer
namespace WebSocket

open Http2 (Octet Octets Text Exn text naturalLast)

/-- A call that `Read_Message` makes. -/
inductive Callback where
  /-- `On_Message`, for a `WebSocket` of the given kind. -/
  | onMessage (kind : Kind) (message : Octets)
  /-- `On_Close`. -/
  | onClose (message : Octets)
  /-- `On_Error` of the `WebSocket`. -/
  | onError (message : Text)
  /-- `On_Error` of the `WebSocket` with the message of an exception. -/
  | onException (exn : Exn)
  /-- `On_Close` with the message of an exception. -/
  | onCloseException (exn : Exn)
  /-- The parameter `On_Success`. -/
  | onSuccess
  /-- The parameter `On_Error`. -/
  | onFailure
  deriving DecidableEq, Repr

/-- The message that is handed over, with its kind. -/
def Callback.message? : Callback → Option (Kind × Octets)
  | onMessage kind message => some (kind, message)
  | _ => none

/-- A reader of a `WebSocket`: the message accumulated so far and the calls made. -/
structure Reader where
  object : Object
  message : Octets := []
  callbacks : List Callback := []
  isShutdown : Bool := false

namespace Reader

/-- Make calls. -/
def call (reader : Reader) (callbacks : List Callback) : Reader :=
  { reader with callbacks := reader.callbacks ++ callbacks }

/-- `Shutdown`. -/
def shutdown (reader : Reader) : Reader := { reader with isShutdown := true }

/-- The messages that have been delivered, each with its kind. -/
def delivered (reader : Reader) : List (Kind × Octets) :=
  reader.callbacks.filterMap Callback.message?

/-- `WebSocket_Exception`. -/
def webSocketException (reader : Reader) (exn : Exn) (error : ErrorType) : Reader :=
  let reader := { reader with object := { reader.object with errno := error.code } }
  let closes := if error = .abnormalClosure then [] else [Callback.onCloseException exn]
  (reader.call (.onException exn :: closes)).shutdown

/-- The cases `Text` and `Binary` of `Read_Message`. -/
def handleData (data : Octets) : EStateM Exn Reader Bool := fun reader =>
  let message := reader.message ++ data
  if naturalLast < message.length then
    .error .constraintError reader
  else if reader.object.protocol.EndOfMessage then
    if reader.object.kind = .text ∧ Utils.isValidUtf8 message = false then
      .ok true ({ reader with message }.call [.onFailure, .onClose message]).shutdown
    else
      .ok true ({ reader with message }.call [.onMessage reader.object.kind message, .onSuccess])
  else
    .ok false { reader with message }

/-- The part of `Read_Message` after `Receive`. -/
def handle (data : Octets) : EStateM Exn Reader Bool := fun reader =>
  match reader.object.kind with
  | .text | .binary => handleData data reader
  | .connectionClose => .ok true (reader.call [.onFailure, .onClose reader.message]).shutdown
  | .ping | .pong =>
      if reader.object.protocol.EndOfMessage then
        .ok true (reader.call [.onSuccess])
      else
        .ok false reader
  | .connectionOpen => .ok true reader
  | .unknown =>
      .ok true (reader.call [.onFailure, .onError (text "Unknown frame type"),
        .onClose (text "Unknown frame type")]).shutdown

/-- `Read_Message`. -/
def readMessage (around : Surroundings) : EStateM Exn Reader Bool := fun reader =>
  match Object.receive around 4096 reader.object.protocol reader.object with
  | .ok data object => handle data { reader with object }
  | .error .socketError object =>
      .ok true (({ reader with object }.webSocketException .socketError .abnormalClosure).call
        [.onFailure])
  | .error exn object => .error exn { reader with object }

/-- The loop around `Read_Message`, for as many calls as given: an exception shuts the `WebSocket`
down, and a complete message is followed by the next one while there is something to read. -/
def readMessages (around : Nat → Surroundings) : Nat → Reader → Reader
  | 0, reader => reader
  | count + 1, reader =>
      if reader.isShutdown = true ∨ reader.object.incoming.flatten = [] then
        reader
      else
        match readMessage (around count) reader with
        | .ok true reader => readMessages around count { reader with message := [] }
        | .ok false reader => readMessages around count reader
        | .error exn reader => (reader.call [.onFailure]).webSocketException exn .protocolError

end Reader

end WebSocket
end AdaWebServer

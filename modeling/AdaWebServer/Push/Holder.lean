import AdaWebServer.Http2.Basic
import AdaWebServer.Utils.Hex
import AdaWebServer.WebSocket.Rfc6455
import Mathlib.Data.List.AList

/-!
# Clients of a push server

A client is kept with the messages that wait to be written to it.  A message that is sent to a client
is written at once if the socket is ready, and is queued otherwise.
-/

namespace AdaWebServer
namespace Push

open Http2 (Octets Text text image naturalLast)
open Utils (hex)

/-- The checks that raise `Constraint_Error`. -/
inductive Check where
  /-- A number is out of its range. -/
  | range
  /-- A key is not in a container. -/
  | absent
  /-- A key that is inserted is in a container. -/
  | present
  deriving DecidableEq

/-- The exceptions, and the ways in which the program goes wrong. -/
inductive Exn where
  | closed
  | duplicateClientId
  | clientGone
  | programError
  | assertionError
  | constraintError (check : Check)
  /-- Something has been reached through an access to what has been freed. -/
  | dangling
  /-- A loop has not ended within the turns that it is given. -/
  | endless
  deriving DecidableEq

/-- `Mode`. -/
inductive Mode where
  | plain
  | multipart
  | chunked
  deriving DecidableEq

/-- `Phase_Type`. -/
inductive Phase where
  | available
  | going
  | waiting
  deriving DecidableEq

/-- A set of groups. -/
structure GroupSet where
  names : List Text
  nodup : names.Nodup
  deriving DecidableEq

namespace GroupSet

instance : Membership Text GroupSet := ⟨fun groups name => name ∈ groups.names⟩

instance (name : Text) (groups : GroupSet) : Decidable (name ∈ groups) :=
  inferInstanceAs (Decidable (name ∈ groups.names))

/-- `Insert`, of a group that may be in the set. -/
def insert (groups : GroupSet) (name : Text) : GroupSet where
  names := List.insert name groups.names
  nodup := groups.nodup.insert

/-- `Delete`. -/
def delete (groups : GroupSet) (name : Text) : GroupSet where
  names := groups.names.erase name
  nodup := groups.nodup.erase name

theorem mem_insert {groups : GroupSet} {name other : Text} :
    other ∈ groups.insert name ↔ other = name ∨ other ∈ groups :=
  List.mem_insert_iff

theorem mem_delete {groups : GroupSet} {name other : Text} :
    other ∈ groups.delete name ↔ other ≠ name ∧ other ∈ groups :=
  groups.nodup.mem_erase_iff

end GroupSet

/-- `Message_Type`, in its node of the list of chunks. -/
structure Message where
  node : Nat
  data : Octets
  thin : Text
  deriving DecidableEq

/-- `Client_Holder`, with what has been written to its socket.  The nodes of the list of chunks are
numbered. -/
structure ClientHolder (ε : Type) where
  webSocket : Bool
  written : Octets := []
  kind : Mode
  created : Int
  environment : ε
  groups : GroupSet
  chunks : List Message := []
  nodes : Nat := 0
  chunkSent : Nat := 0
  thin : AList (fun _ : Text => Nat) := ∅
  phase : Phase := .available
  timeout : Int
  errmsg : Text := []

/-- The conversion of the data, and the random boundary. -/
structure Config (δ ε : Type) where
  toStreamArray : δ → ε → Octets
  boundary : Text

/-- What is sent with one call. -/
structure Sending (δ : Type) where
  data : δ
  contentType : Text
  thinId : Text

/-- The events that `Check` reports. -/
structure Events where
  error : Bool := false
  input : Bool := false
  output : Bool := false

/-- The message of a `Socket_Error`, which is never empty. -/
abbrev ErrorMessage := { message : Text // message ≠ [] }

/-- What a socket does while something is sent to it. -/
structure Behaviour where
  check : Except ErrorMessage Events
  /-- The descriptor is `No_Socket`. -/
  noSocket : Bool := false
  errno : Nat := 0
  receive : Except ErrorMessage Octets := .ok []
  /-- How many octets are accepted. -/
  accepts : Nat := 0
  /-- The message of the `Socket_Error` that `Send` raises. -/
  failure : Option ErrorMessage := none

/-- An operation on a client. -/
abbrev Holding (ε α : Type) := EStateM Exn (ClientHolder ε) α

variable {δ ε : Type}

/-! ## Framing -/

/-- `New_Line`. -/
def newLine : Text := [13, 10]

/-- `Delimiter`. -/
def Config.delimiter (config : Config δ ε) : Text := text "--" ++ config.boundary ++ newLine

/-- `Messages.Content_Type` of a format. -/
def contentTypeHeader (format : Text) : Text := text "Content-Type: " ++ format

/-- The message of a WebSocket that a server writes for some text. -/
def webSocketMessage (data : Octets) : Octets :=
  WebSocket.sendFrame WebSocket.oText data 0 none

namespace ClientHolder

/-- `Prefix` in `Data_Chunk`. -/
def framePrefix (config : Config δ ε) (contentType : Text) (size : Nat) : Holding ε Text :=
  fun holder =>
    match holder.kind with
    | .multipart =>
        if holder.chunkSent < naturalLast then
          let header := contentTypeHeader contentType ++ newLine ++ newLine
          .ok (if holder.chunkSent = 0 then config.delimiter ++ header else header)
            { holder with chunkSent := holder.chunkSent + 1 }
        else .error (.constraintError .range) holder
    | .chunked =>
        if size ≤ naturalLast then .ok (hex size ++ newLine) holder
        else .error (.constraintError .range) holder
    | .plain => .ok [] holder

/-- `Suffix` in `Data_Chunk`. -/
def frameSuffix (config : Config δ ε) (holder : ClientHolder ε) : Text :=
  match holder.kind with
  | .multipart => newLine ++ newLine ++ config.delimiter
  | .chunked => newLine
  | .plain => []

/-- `Data_Chunk`. -/
def dataChunk (config : Config δ ε) (sending : Sending δ) : Holding ε Octets := do
  let holder ← get
  let dataToSend := config.toStreamArray sending.data holder.environment
  if dataToSend ≠ [] then
    let front ← framePrefix config sending.contentType dataToSend.length
    return front ++ dataToSend ++ frameSuffix config holder
  else
    return []

/-! ## The queue of a client -/

/-- `Thin.Delete`, for a message that has an identity. -/
def forget (message : Message) : Holding ε Unit := fun holder =>
  if message.thin = [] then .ok () holder
  else if message.thin ∈ holder.thin then
    .ok () { holder with thin := holder.thin.erase message.thin }
  else .error (.constraintError .absent) holder

/-- The loop of `Get_Data`, for an array of some size. -/
def getDataLoop (size : Nat) : Nat → Octets → Holding ε Octets
  | 0, data => pure data
  | times + 1, data => do
      match (← get).chunks with
      | [] => return data
      | message :: rest =>
          if size < data.length + message.data.length then
            if data = [] then
              -- Too big single message, to be sent partially.
              forget message
              modify fun holder => { holder with
                chunks := { message with data := message.data.drop size, thin := [] } :: rest }
              return message.data.take size
            else return data
          else
            forget message
            modify fun holder => { holder with chunks := rest }
            getDataLoop size times (data ++ message.data)

/-- `Get_Data`. -/
def getData (size : Nat) : Holding ε Octets := fun holder =>
  getDataLoop size (holder.chunks.length + 1) [] holder

/-- A new node at the end of the list of chunks. -/
def append (data : Octets) (thin : Text) (holder : ClientHolder ε) : ClientHolder ε :=
  { holder with chunks := holder.chunks ++ [⟨holder.nodes, data, thin⟩], nodes := holder.nodes + 1 }

/-- `Replace_Element` at a node. -/
def replaceElement (node : Nat) (data : Octets) (thin : Text) (holder : ClientHolder ε) :
    ClientHolder ε :=
  { holder with chunks := holder.chunks.map fun message =>
      if message.node = node then ⟨node, data, thin⟩ else message }

/-- `To_Buffer`. -/
def toBuffer (config : Config δ ε) (sending : Sending δ) : Holding ε Unit := do
  let chunk ← dataChunk config sending
  let holder ← get
  match (if sending.thinId = [] then none else holder.thin.lookup sending.thinId) with
  | some node =>
      if holder.chunks.any fun message : Message => message.node = node then
        modify (replaceElement node chunk sending.thinId)
      else throw .dangling
  | none =>
      set (holder.append chunk sending.thinId)
      if sending.thinId ≠ [] then
        modify fun queued =>
          { queued with thin := queued.thin.insert sending.thinId holder.nodes }

/-! ## Sending -/

/-- Octets are written to the socket. -/
def write (octets : Octets) (holder : ClientHolder ε) : ClientHolder ε :=
  { holder with written := holder.written ++ octets }

/-- The client has failed. -/
def fail (message : Text) (holder : ClientHolder ε) : ClientHolder ε :=
  { holder with errmsg := message }

/-- The message is queued, and the client is about to go to the waiter. -/
def toWaiter (config : Config δ ε) (sending : Sending δ) : Holding ε Bool := do
  toBuffer config sending
  modify fun holder => { holder with phase := .going }
  return true

/-- What `Send_Data` does when the socket is ready for output. -/
def sendReady (config : Config δ ε) (behaviour : Behaviour) (sending : Sending δ) :
    Holding ε Bool := do
  let chunk ← dataChunk config sending
  if (← get).webSocket then
    let message := webSocketMessage chunk
    match behaviour.failure with
    | some failure =>
        modify fun holder => (holder.write (message.take behaviour.accepts)).fail failure.1
        return true
    | none =>
        modify (write message)
        return false
  else
    match behaviour.failure with
    | some failure =>
        modify (fail failure.1)
        return true
    | none =>
        modify (write (chunk.take behaviour.accepts))
        if chunk.length ≤ behaviour.accepts then return false
        else if 0 < behaviour.accepts then
          modify fun holder =>
            { holder.append (chunk.drop behaviour.accepts) [] with phase := .going }
          return true
        else toWaiter config sending

/-- What `Send_Data` does for a client that is available.  The result says whether `Holder` is not
null. -/
def sendAvailable (config : Config δ ε) (behaviour : Behaviour) (sending : Sending δ) :
    Holding ε Bool := do
  match behaviour.check with
  | .error failure =>
      modify (fail failure.1)
      if (← get).webSocket ∧ behaviour.noSocket then return true
      else toWaiter config sending
  | .ok events =>
      if events.error then
        modify (fail (text "Check server push output error " ++ image behaviour.errno))
        return true
      else if events.input then
        if (← get).webSocket then return false
        else
          modify (fail (match behaviour.receive with
            | .ok unexpect => text "Unexpected data from server push socket: " ++ unexpect
            | .error failure => failure.1))
          return true
      else if events.output then sendReady config behaviour sending
      else toWaiter config sending

/-- `Send_Data` of an open server. -/
def sendData (config : Config δ ε) (behaviour : Behaviour) (sending : Sending δ) :
    Holding ε Bool := do
  let holder ← get
  if holder.phase = .available then
    if holder.errmsg ≠ [] then return true
    else if holder.chunks ≠ [] then throw .programError
    else sendAvailable config behaviour sending
  else
    toBuffer config sending
    return false

end ClientHolder
end Push
end AdaWebServer

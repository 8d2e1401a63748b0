import AdaWebServer.Containers.HeaderValues
import AdaWebServer.Containers.Parameters
import AdaWebServer.Resources.LineReading

/-!
# Multipart messages

The parts of a message are read one after another from a reader of lines and octets.  A part is a form
parameter, a file or a field, and the boundary behind it tells whether another one follows.
-/

namespace AdaWebServer
namespace Server
namespace Multipart

open Containers (Failure Table trial search)
open Http2 (Octet Octets Text image text)
open Resources (MemoryStream)

/-- What the parser takes from the configuration, from other units and from the operating system. -/
structure Surroundings where
  uploadDirectory : Text
  serverName : Text
  maxPostParameters : Nat
  inputLineSizeLimit : Nat
  firstBlockLength : Nat
  nextBlockLength : Nat
  processId : Nat
  /-- `MIME.Extension`. -/
  extension : Text → Text
  /-- `Simple_Name`, or nothing where `Name_Error` is raised. -/
  simpleName : Text → Option Text
  /-- Files can be created in the upload directory. -/
  creatable : Bool
  /-- The number of octets that a file may have. -/
  room : Nat
  /-- What an octet holds that has not been assigned. -/
  memory : Octet

/-- An attachment as it is added to the list. -/
structure Received where
  filename : Text
  name : Text
  contentId : Text
  headers : Table

/-- The status of a request, with the list of attachments that is passed on while it is read, the files
that have been written and the counter of their names. -/
structure Request (Socket : Type) where
  socket : Socket
  binaryData : MemoryStream
  parameters : Table
  attachments : List Received
  uploaded : List Received
  files : List (Text × Octets)
  uid : Nat

/-- The parameters of the generic unit. -/
structure Reader (Socket : Type) where
  isH2 : Bool
  getLine : Request Socket → Trial Failure (Text × Request Socket)
  /-- `Read`: what is put at the front of the buffer. -/
  read : Nat → Request Socket → Trial Failure (Octets × Request Socket)
  readBody : Nat → Text → Request Socket → Trial Failure (Request Socket)
  checkDataTimeout : Request Socket → Trial Failure (Request Socket)

variable {Socket : Type} (reader : Reader Socket) (system : Surroundings)

namespace Request

/-- `Append_Body`. -/
def appendBody (request : Request Socket) (buffer : Octets) (trim : Bool) : Request Socket :=
  { request with
    binaryData := request.binaryData.append system.firstBlockLength system.nextBlockLength buffer trim }

end Request

/-! ## File data -/

/-- `Message_Mode`. -/
inductive MessageMode where
  | rootAttachment
  | attachment
  | fileUpload
  deriving DecidableEq

/-- `Error_State`. -/
inductive ErrorState where
  | noError
  | nameError
  | deviceError
  deriving DecidableEq

/-- The variables of `Get_File_Data`: the octet that was read last, the part of the buffer in front of
`Index` and what has been written to the file. -/
structure Transfer (Socket : Type) where
  request : Request Socket
  data : Octet
  buffer : Octets
  file : Octets
  error : ErrorState

/-- `Buffer'Last`. -/
def bufferLast : Nat := 4096

/-- `Signature`. -/
def signature (startBoundary : Text) : Octets := [13, 10] ++ startBoundary

/-- The message of a failed check. -/
def checkFailed {α : Type} : Trial Failure α := .error (.raised (.exception .constraintError))

namespace Transfer

/-- `Read` of one octet, which stays what it was where nothing is read. -/
def readData (transfer : Transfer Socket) : Trial Failure (Transfer Socket) := do
  let (octets, request) ← reader.read 1 transfer.request
  return { transfer with data := octets.headD transfer.data, request }

/-- `Write`. -/
def write (mode : MessageMode) (octets : Octets) (trim : Bool) (transfer : Transfer Socket) :
    Transfer Socket :=
  if transfer.error ≠ .noError then transfer
  else if mode = .rootAttachment then
    { transfer with request := transfer.request.appendBody system octets trim }
  else if transfer.file.length + octets.length ≤ system.room then
    { transfer with file := transfer.file ++ octets }
  else { transfer with error := .deviceError }

/-- The buffer is written and starts again. -/
def flush (mode : MessageMode) (transfer : Transfer Socket) : Transfer Socket :=
  { transfer.write system mode transfer.buffer false with buffer := [] }

/-- `Write_Data`, which checks that the data fit in the buffer. -/
def writeData (mode : MessageMode) (candidate : Octets) (transfer : Transfer Socket) :
    Trial Failure (Transfer Socket) :=
  if transfer.error ≠ .noError then .ok transfer
  else
    let flushed :=
      if bufferLast < transfer.buffer.length + 1 + candidate.length then transfer.flush system mode
      else transfer
    if bufferLast < flushed.buffer.length + candidate.length then checkFailed
    else .ok { flushed with buffer := flushed.buffer ++ candidate }

/-- The loop of `Check_EOF`, with the octets that may be the signature and the number of those that are
missing. -/
def checkEofLoop (mode : MessageMode) (sought : Octets) : Nat → Octets → Transfer Socket →
    Trial Failure (Bool × Transfer Socket)
  | 0, _, _ => checkFailed
  | missing + 1, candidate, transfer => do
      let transfer ← transfer.readData reader
      if transfer.data = 13 then do
        let transfer ← transfer.writeData system mode candidate
        return (false, transfer)
      else if missing = 0 then
        if candidate ++ [transfer.data] = sought then return (true, transfer)
        else do
          let transfer ← transfer.writeData system mode candidate
          return (false, transfer)
      else checkEofLoop mode sought missing (candidate ++ [transfer.data]) transfer

/-- `Check_EOF`. -/
def checkEof (mode : MessageMode) (sought : Octets) (transfer : Transfer Socket) :
    Trial Failure (Bool × Transfer Socket) :=
  transfer.checkEofLoop reader system mode sought (sought.length - 1) [13]

/-- A turn of the loop that runs while the octet is a carriage return; it is left with whether the end of
the data has been found. -/
def returnTurn (mode : MessageMode) (sought : Octets) (transfer : Transfer Socket) :
    Trial Failure (Turn (Transfer Socket) (Bool × Transfer Socket)) :=
  if transfer.data = 13 then do
    let (found, transfer) ← transfer.checkEof reader system mode sought
    if found then return .leave (true, transfer) else return .again transfer
  else return .leave (false, transfer)

/-- The octet is stored, and a full buffer is written. -/
def store (mode : MessageMode) (transfer : Transfer Socket) : Trial Failure (Transfer Socket) :=
  if bufferLast ≤ transfer.buffer.length then checkFailed
  else
    let stored := { transfer with buffer := transfer.buffer ++ [transfer.data] }
    if stored.buffer.length = bufferLast then do
      let flushed := stored.flush system mode
      let request ← reader.checkDataTimeout flushed.request
      return { flushed with request }
    else .ok stored

/-- A turn of the loop `Read_File`. -/
def readTurn (mode : MessageMode) (sought : Octets) (times : Nat) (transfer : Transfer Socket) :
    Trial Failure (Turn (Transfer Socket) (Transfer Socket)) := do
  let transfer ← transfer.readData reader
  let (found, transfer) ← turns (returnTurn reader system mode sought) times transfer
  if found then return .leave transfer
  else do
    let transfer ← transfer.store reader system mode
    return .again transfer

/-- The variables before the data are read: the file is created. -/
def start (mode : MessageMode) (request : Request Socket) : Transfer Socket where
  request := request
  data := system.memory
  buffer := []
  file := []
  error := if mode ≠ .rootAttachment ∧ ¬system.creatable then .nameError else .noError

/-- The rest of the buffer is written. -/
def finish (mode : MessageMode) (transfer : Transfer Socket) : Transfer Socket :=
  if transfer.buffer ≠ [] then transfer.write system mode transfer.buffer true else transfer

/-- The file is there, and an attachment is added to the list. -/
def close (mode : MessageMode) (serverFilename filename : Text) (headers : Table)
    (transfer : Transfer Socket) : Request Socket :=
  let request := transfer.request
  let request :=
    if mode ≠ .rootAttachment ∧ transfer.error ≠ .nameError then
      { request with files := request.files ++ [(serverFilename, transfer.file)] }
    else request
  if mode = .attachment ∧ transfer.error = .noError then
    { request with
      attachments := request.attachments ++
        [{ filename := serverFilename, name := filename, contentId := [], headers }] }
  else request

end Transfer

/-- The rest of the boundary line: whether it is that of the end. -/
def readTerminator (request : Request Socket) : Trial Failure (Bool × Request Socket) := do
  let (octets, request) ← reader.read 2 request
  if octets.getD 1 system.memory = 10 then return (false, request)
  else do
    let (_, request) ← reader.read 2 request
    return (true, request)

/-- `Get_File_Data`, which tells whether the end has been found. -/
def getFileData (times : Nat) (mode : MessageMode) (serverFilename filename : Text) (headers : Table)
    (startBoundary : Text) (request : Request Socket) : Trial Failure (Bool × Request Socket) := do
  let transfer ← turns (Transfer.readTurn reader system mode (signature startBoundary) times) times
    (Transfer.start system mode request)
  let transfer := transfer.finish system mode
  let (endFound, request) ←
    readTerminator reader system (transfer.close mode serverFilename filename headers)
  match transfer.error with
  | .noError => return (endFound, request)
  | .nameError => .error (.raised (.nameError (text "Cannot create file " ++ serverFilename)))
  | .deviceError =>
      .error (.raised (.deviceError
        (text "No space left on device while writing " ++ serverFilename)))

/-! ## Parts -/

end Multipart
end Server
end AdaWebServer

import AdaWebServer.Server.FileData

/-!
# Reading a message in memory

The body of an HTTP/2 request is a stream in memory when its parts are read.
-/

namespace AdaWebServer
namespace Server
namespace Multipart

open Containers (Failure Table trial)
open Http2 (Octet Octets Text text)
open Resources (MemoryStream)
open Resources.MemoryStream (Unread)

variable (system : Surroundings)

/-! ## The reader -/

/-- `Read` of the stream in memory. -/
def readMemory (room : Nat) (request : Request Unit) : Trial Failure (Octets × Request Unit) := do
  let (octets, binaryData) ← trial (request.binaryData.read room)
  return (octets, { request with binaryData })

/-- `Get_Line` of the stream in memory. -/
def getLineMemory (request : Request Unit) : Trial Failure (Text × Request Unit) := do
  let (line, binaryData) ← trial request.binaryData.getLine
  return (line, { request with binaryData })

/-- A turn of the loop of `Read_Body`, with the number of octets that match and the one read last. -/
def bodyTurn (lookFor : Text) (state : Nat × Octet × Request Unit) :
    Trial Failure (Turn (Nat × Octet × Request Unit) (Request Unit)) := do
  let (octets, request) ← readMemory 1 state.2.2
  let data := octets.headD state.2.1
  match lookFor[state.1]? with
  | none => checkFailed
  | some sought =>
      if data = sought then
        if state.1 + 1 = lookFor.length then return .leave request
        else return .again (state.1 + 1, data, request)
      else return .again (0, data, request)

/-- The unit that reads the body of an HTTP/2 request. -/
def memoryReader : Reader Unit where
  isH2 := true
  getLine := getLineMemory
  read := readMemory
  readBody times boundary request := turns (bodyTurn boundary) times (0, system.memory, request)
  checkDataTimeout request := .ok request

/-! ## Lines and octets -/

section Lines

variable {request : Request Unit} {content unread : Octets}

theorem readMemory_eq (left : Unread request.binaryData content unread) {room : Nat}
    (positive : 0 < room) :
    ∃ binaryData, readMemory room request = .ok (unread.take room, { request with binaryData }) ∧
      Unread binaryData content (unread.drop room) := by
  obtain ⟨next, read_eq, next_left⟩ := left.read positive
  refine ⟨next, ?_, next_left⟩
  rw [readMemory, read_eq]
  rfl

end Lines

end Multipart
end Server
end AdaWebServer

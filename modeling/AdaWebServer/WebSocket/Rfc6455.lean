import AdaWebServer.Utils.Utf8
import AdaWebServer.WebSocket.Basic

/-!
# The WebSocket protocol of RFC 6455

`Receive` reads at most one buffer of one frame.  It works on a copy of the protocol state, which
it stores only after the payload of a data frame.
-/

namespace AdaWebServer
namespace WebSocket

open Http2 (Octet Octets Exn bigEndian octetsOf naturalLast)

/-- `Error_Type`. -/
inductive ErrorType where
  | normalClosure
  | goingAway
  | protocolError
  | unsupportedData
  | noStatusReceived
  | abnormalClosure
  | invalidFramePayloadData
  | policyViolation
  | messageTooBig
  | mandatoryExtension
  | internalServerError
  | tlsHandshake
  | cannotResolveError
  | user01
  | user02
  | user03
  | user04
  | user05
  deriving DecidableEq, Repr

namespace ErrorType

/-- `Error_Code`. -/
def code : ErrorType → Nat
  | normalClosure => 1000
  | goingAway => 1001
  | protocolError => 1002
  | unsupportedData => 1003
  | noStatusReceived => 1005
  | abnormalClosure => 1006
  | invalidFramePayloadData => 1007
  | policyViolation => 1008
  | messageTooBig => 1009
  | mandatoryExtension => 1010
  | internalServerError => 1011
  | tlsHandshake => 1015
  | cannotResolveError => 0000
  | user01 => 3000
  | user02 => 3001
  | user03 => 3002
  | user04 => 3003
  | user05 => 3004

/-- `Error`, the error type of an error number. -/
def ofErrno : Nat → ErrorType
  | 1000 => normalClosure
  | 1001 => goingAway
  | 1002 => protocolError
  | 1003 => unsupportedData
  | 1005 => noStatusReceived
  | 1006 => abnormalClosure
  | 1007 => invalidFramePayloadData
  | 1008 => policyViolation
  | 1009 => messageTooBig
  | 1010 => mandatoryExtension
  | 1011 => internalServerError
  | 1015 => tlsHandshake
  | _ => cannotResolveError

/-- `Is_Valid_Close_Code`. -/
def IsValidCloseCode : ErrorType → Prop
  | normalClosure | goingAway | protocolError | unsupportedData
  | invalidFramePayloadData | policyViolation | messageTooBig | mandatoryExtension
  | internalServerError => True
  | _ => False

instance : DecidablePred IsValidCloseCode := fun error => by
  cases error <;> unfold IsValidCloseCode <;> infer_instance

end ErrorType

/-- `Is_Library_Error`. -/
def IsLibraryError (code : Nat) : Prop := 3000 ≤ code ∧ code ≤ 4999

instance (code : Nat) : Decidable (IsLibraryError code) := inferInstanceAs (Decidable (_ ∧ _))

/-- The protocol state. -/
structure State where
  remaining : Nat := 0
  read : Nat := 0
  opcd : Opcode := 0
  hasMask : Bool := false
  mask : MaskingKey := fun _ => 0
  closeSent : Bool := false
  lastFragment : Bool := true

/-- `End_Of_Message`. -/
def State.EndOfMessage (state : State) : Prop := state.remaining = 0 ∧ state.lastFragment = true

instance (state : State) : Decidable state.EndOfMessage := inferInstanceAs (Decidable (_ ∧ _))

/-- A `WebSocket` object, what its socket will deliver and the frames that it has written. -/
structure Object where
  isClientSide : Bool
  kind : Kind := .unknown
  errno : Nat := 65535
  protocol : State := {}
  incoming : List Octets := []
  written : List (Opcode × Octets) := []

/-- What an operation finds around the object. -/
structure Surroundings where
  /-- The result of `Create_Random_Mask`. -/
  randomMask : MaskingKey
  /-- The octets in memory after the string of a close frame. -/
  beyond : Octets

/-- An operation on a `WebSocket`. -/
abbrev Action := EStateM Exn Object

/-! ## Sending -/

/-- `Send_Frame_Header`. -/
def sendFrameHeader (opcd : Opcode) (dataLength : Nat) (mask : Option MaskingKey) : Octets :=
  let payloadLength : Fin 128 :=
    if small : dataLength ≤ 125 then ⟨dataLength, lt_of_small small⟩
    else if dataLength ≤ 65535 then 126
    else 127
  let extended : Octets :=
    if dataLength ≤ 125 then []
    else if dataLength ≤ 65535 then octetsOf 2 dataLength
    else octetsOf 8 dataLength
  Header.octets ⟨true, false, false, false, opcd, mask.isSome, payloadLength⟩ ++ extended ++
    mask.elim [] MaskingKey.octets

/-- `Send_Payload`. -/
def sendPayload (data : Octets) (mask : Option MaskingKey) : Octets :=
  match mask with
  | some key => key.mask 0 data
  | none => data

/-- `Send_Frame`. -/
def sendFrame (opcd : Opcode) (data : Octets) (error : Nat) (mask : Option MaskingKey) : Octets :=
  let errorCode := if opcd = oConnectionClose ∧ 0 < error then octetsOf 2 error else []
  sendFrameHeader opcd (data.length + errorCode.length) mask ++ errorCode ++ sendPayload data mask

/-- The payload that `Send_Data` writes from an element of the string on, 4096 octets at a time,
and the exception that ends it. -/
def sendData (data : Octets) (mask : Option MaskingKey) : Nat → Nat → Octets × Option Exn
  | 0, _ => ([], none)
  | fuel + 1, first =>
      if naturalLast < first + 4096 then
        ([], some .constraintError)
      else
        let last := min data.length (first + 4096 - 1)
        let slice := sendPayload ((data.take last).drop (first - 1)) mask
        if last = data.length then
          (slice, none)
        else
          let rest := sendData data mask fuel (last + 1)
          (slice ++ rest.1, rest.2)

/-- The opcode of the data frames that are sent. -/
def dataOpcode (kind : Kind) : Opcode := if kind = .text then oText else oBinary

namespace Object

/-- The masking key of a frame that is sent. -/
def maskOf (object : Object) (around : Surroundings) : Option MaskingKey :=
  if object.isClientSide then some around.randomMask else none

/-- Write a frame. -/
def write (object : Object) (opcd : Opcode) (octets : Octets) : Object :=
  { object with written := object.written ++ [(opcd, octets)] }

/-- `Send` of the protocol with a `Stream_Element_Array`. -/
def sendArray (around : Surroundings) (data : Octets) : Action Unit := fun object =>
  let mask := object.maskOf around
  let opcd := dataOpcode object.kind
  .ok () (object.write opcd (sendFrameHeader opcd data.length mask ++ sendPayload data mask))

/-- `Send` of the protocol with an `Unbounded_String`. -/
def sendString (around : Surroundings) (data : Octets) : Action Unit := fun object =>
  let mask := object.maskOf around
  let opcd := dataOpcode object.kind
  let payload := sendData data mask (data.length + 1) 1
  let object := object.write opcd (sendFrameHeader opcd data.length mask ++ payload.1)
  match payload.2 with
  | some exn => .error exn object
  | none => .ok () object

/-- `Send` of a `WebSocket`. -/
def send (around : Surroundings) (message : Octets) (isBinary : Bool) : Action Unit := do
  modify fun object => { object with kind := if isBinary then .binary else .text }
  sendArray around message

/-- Send a control frame. -/
def writeFrame (around : Surroundings) (opcd : Opcode) (data : Octets) (error : Nat) :
    Action Unit :=
  modify fun object => object.write opcd (sendFrame opcd data error (object.maskOf around))

/-- `Close` of the protocol. -/
def close (around : Surroundings) (data : Octets) (error : Nat) : Action Unit := do
  writeFrame around oConnectionClose data error
  modify fun object => { object with protocol := { object.protocol with closeSent := true } }

/-! ## Receiving -/

/-- `Read_Data`, with the loop of `Read_Payload` over the socket. -/
def readData (count : Nat) : Action Octets := fun object =>
  match Chunks.read object.incoming count with
  | some (data, rest) => .ok data { object with incoming := rest }
  | none => .error .socketError { object with incoming := [] }

/-- The length of the payload. -/
def readLength (header : Header) : Action Nat :=
  if header.payloadLength = 126 then do
    let d16 ← readData 2
    pure (bigEndian d16)
  else if header.payloadLength = 127 then do
    let d64 ← readData 8
    if bigEndian d64 < 2 ^ 63 then pure (bigEndian d64) else throw .constraintError
  else
    pure header.payloadLength

/-- The masking key, or the one there was. -/
def readMask (header : Header) (mask : MaskingKey) : Action MaskingKey :=
  if header.mask then do
    let octets ← readData 4
    pure (.ofOctets octets)
  else
    pure mask

/-- `Read_Payload`. -/
def readPayload (state : State) (length : Nat) : Action (Octets × State) := do
  let data ← readData length
  pure (if state.hasMask then state.mask.mask state.read data else data,
    { state with read := state.read + length, remaining := state.remaining - length })

/-- The header of a frame is wrong: a reserved bit is set, there is nothing to continue, or a
message starts within another. -/
def BadHeader (header : Header) (protocol : State) : Prop :=
  header.rsv1 = true ∨ header.rsv2 = true ∨ header.rsv3 = true ∨
    (header.opcd = oContinuation ∧ protocol.lastFragment = true) ∨
    ((header.opcd = oText ∨ header.opcd = oBinary) ∧ protocol.lastFragment = false)

instance (header : Header) (protocol : State) : Decidable (BadHeader header protocol) :=
  inferInstanceAs (Decidable (_ ∨ _))

/-- A control frame is not fragmented and has a payload of at most 125 octets. -/
def WholeControl (header : Header) : Prop :=
  header.payloadLength ≤ 125 ∧ header.fin = true

instance (header : Header) : Decidable (WholeControl header) :=
  inferInstanceAs (Decidable (_ ∧ _))

/-- The error number that a close frame leads to.  `To_String` keeps the bounds of the slice, so
that as many octets are checked as the payload has. -/
def closeErrno (around : Surroundings) (data : Octets) : Nat :=
  if 2 ≤ data.length then
    let code := bigEndian (data.take 2)
    if (IsLibraryError code ∨ (ErrorType.ofErrno code).IsValidCloseCode) ∧
        Utils.isValidUtf8 ((data.drop 2 ++ around.beyond).take data.length) = true then
      code
    else
      ErrorType.protocolError.code
  else if data.length = 1 then
    ErrorType.protocolError.code
  else
    ErrorType.normalClosure.code

/-- The reply to a close frame, if one is needed. -/
def answerClose (around : Surroundings) (data : Octets) : Action Unit := fun object =>
  if object.protocol.closeSent then
    .ok () object
  else
    (writeFrame around oConnectionClose (data.drop 2) object.errno)
      { object with protocol := { object.protocol with closeSent := true } }

/-- Set the kind. -/
def setKind (kind : Kind) : Action Unit := modify fun object => { object with kind }

/-- Set the error number. -/
def setErrno (errno : Nat) : Action Unit := modify fun object => { object with errno }

/-- Store the copy of the protocol state. -/
def setProtocol (protocol : State) : Action Unit := modify fun object => { object with protocol }

/-- The cases `O_Text` and `O_Binary` of `Receive`. -/
def receiveData (kind : Kind) (state : State) (toRead : Nat) : Action Octets := do
  setKind kind
  let payload ← readPayload state toRead
  setProtocol payload.2
  pure payload.1

/-- The case `O_Connection_Close` of `Receive`. -/
def receiveClose (around : Surroundings) (header : Header) (state : State) (toRead : Nat) :
    Action Octets := do
  let payload ← readPayload state toRead
  if WholeControl header then do
    setErrno (closeErrno around payload.1)
    answerClose around payload.1
    setKind .connectionClose
    pure payload.1
  else do
    setKind .unknown
    pure payload.1

/-- The case `O_Ping` of `Receive`. -/
def receivePing (around : Surroundings) (header : Header) (state : State) (toRead : Nat) :
    Action Octets := do
  setKind .ping
  let payload ← readPayload state toRead
  if WholeControl header then do
    writeFrame around oPong payload.1 0
    pure payload.1
  else do
    setKind .unknown
    pure payload.1

/-- The case `O_Pong` of `Receive`. -/
def receivePong (header : Header) (state : State) (toRead : Nat) : Action Octets := do
  setKind .pong
  let payload ← readPayload state toRead
  if WholeControl header then
    pure payload.1
  else do
    setKind .unknown
    pure payload.1

/-- The payload of a frame, or as much of it as fits into `Data`. -/
def receivePayload (around : Surroundings) (dataLength : Nat) (header : Header) (state : State) :
    Action Octets :=
  let toRead := min dataLength state.remaining
  if state.opcd = oText then receiveData .text state toRead
  else if state.opcd = oBinary then receiveData .binary state toRead
  else if state.opcd = oConnectionClose then receiveClose around header state toRead
  else if state.opcd = oPing then receivePing around header state toRead
  else if state.opcd = oPong then receivePong header state toRead
  else if state.opcd = oContinuation then pure []
  else do
    setKind .unknown
    pure []

/-- `Receive` into a `Data` of the given length, on a copy of the protocol state. -/
def receive (around : Surroundings) (dataLength : Nat) (state : State) : Action Octets := do
  if state.remaining = 0 then do
    let dHeader ← readData 2
    let header := Header.ofOctets dHeader
    let remaining ← readLength header
    let mask ← readMask header state.mask
    let object ← get
    if BadHeader header object.protocol then do
      setKind .unknown
      pure []
    else
      receivePayload around dataLength header
        { state with
          remaining
          mask
          hasMask := header.mask
          read := 0
          lastFragment := header.fin
          opcd := if header.opcd = oContinuation then state.opcd else header.opcd }
  else
    receivePayload around dataLength (Header.ofOctets [0, 0]) state

end Object

end WebSocket
end AdaWebServer

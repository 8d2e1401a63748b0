import AdaWebServer.Http2.Connection

/-!
# Frames

The frames of HTTP/2 as the connection reads, checks and creates them.  A frame whose header is
refused is returned without its payload; the payload of any other frame is stored as its octets or
as the record that its view gives.
-/

namespace AdaWebServer
namespace Http2

/-- `Frame.Kind_Type`. -/
inductive Kind where
  | data
  | headers
  | priority
  | rstStream
  | settings
  | pushPromise
  | ping
  | goAway
  | windowUpdate
  | continuation
  | invalid
  deriving DecidableEq, Repr

/-- The kind with an octet on the wire; an octet that is not `'Valid` gives `K_Invalid`. -/
def Kind.ofOctet (octet : Octet) : Kind :=
  if octet = 0 then data
  else if octet = 1 then headers
  else if octet = 2 then priority
  else if octet = 3 then rstStream
  else if octet = 4 then settings
  else if octet = 5 then pushPromise
  else if octet = 6 then ping
  else if octet = 7 then goAway
  else if octet = 8 then windowUpdate
  else if octet = 9 then continuation
  else invalid

/-- `Kind_Type'Image`, as the messages of the server have it. -/
def Kind.image : Kind → String
  | data => "K_DATA"
  | headers => "K_HEADERS"
  | priority => "K_PRIORITY"
  | rstStream => "K_RST_STREAM"
  | settings => "K_SETTINGS"
  | pushPromise => "K_PUSH_PROMISE"
  | ping => "K_PING"
  | goAway => "K_GOAWAY"
  | windowUpdate => "K_WINDOW_UPDATE"
  | continuation => "K_CONTINUATION"
  | invalid => "K_INVALID"

/-- `Stream_Id`. -/
abbrev StreamId := Nat

/-- `End_Stream_Flag`. -/
def endStreamFlag : Octet := 0x01

/-- `Ack_Flag`. -/
def ackFlag : Octet := 0x01

/-- `End_Headers_Flag`. -/
def endHeadersFlag : Octet := 0x04

/-- `Padded_Flag`. -/
def paddedFlag : Octet := 0x08

/-- `Priority_Flag`. -/
def priorityFlag : Octet := 0x20

/-- `Frame.Priority.Payload`. -/
structure PriorityPayload where
  streamDependency : StreamId
  weight : Octet
  deriving DecidableEq, Repr

/-- The class of a frame with its data. -/
inductive Payload where
  /-- A frame of which only the header has been read. -/
  | unread (kind : Kind)
  | data (content : Octets)
  | headers (content : Octets)
  | priority (payload : PriorityPayload)
  | rstStream (errorCode : Nat)
  /-- The settings, or nothing when all of them are unknown. -/
  | settings (values : Option SettingsSet)
  | pushPromise (content : Octets)
  | ping (data : Octets)
  | goAway (content : Octets)
  | windowUpdate (sizeIncrement : Nat)
  | continuation (content : Octets)
  deriving DecidableEq

/-- `Frame.Object'Class`. -/
structure Frame where
  length : Nat
  flags : Octet
  streamId : StreamId
  payload : Payload
  deriving DecidableEq

namespace Frame

/-! ## Parts of a frame -/

/-- `Kind`. -/
def kind (self : Frame) : Kind :=
  match self.payload with
  | .unread kind => kind
  | .data _ => .data
  | .headers _ => .headers
  | .priority _ => .priority
  | .rstStream _ => .rstStream
  | .settings _ => .settings
  | .pushPromise _ => .pushPromise
  | .ping _ => .ping
  | .goAway _ => .goAway
  | .windowUpdate _ => .windowUpdate
  | .continuation _ => .continuation

/-- `Has_Flag`. -/
def hasFlag (self : Frame) (flag : Octet) : Bool := self.flags &&& flag = flag

/-- `Set_Flag`, with the value `True`. -/
def setFlag (self : Frame) (flag : Octet) : Frame := { self with flags := self.flags ||| flag }

/-- `Set_Flags`. -/
def setFlags (self : Frame) (flags : Octet) : Frame := { self with flags }

/-- `Settings.Size`. -/
def settingsSize : Option SettingsSet → Nat
  | some values => values.length
  | none => 1

/-- `Is_Defined`. -/
def isDefined (self : Frame) : Bool :=
  match self.payload with
  | .unread kind =>
      self.length ≠ 0 ∨ kind ≠ .invalid ∨ self.flags ≠ 0 ∨ self.streamId ≠ 0
  | .data content => content ≠ []
  | .goAway content => content ≠ []
  | .windowUpdate sizeIncrement => sizeIncrement ≠ 0
  | .settings values => settingsSize values ≠ 0 ∨ self.flags = ackFlag
  | _ => true

/-- Octet of a payload that a view overlays; what follows the payload in memory is taken as 0. -/
def octetAt (content : Octets) (index : Nat) : Octet := content.getD index 0

/-- `Data.D.Pad_Length`, read through the view of the payload. -/
def padLength (content : Octets) : Except Exn Nat :=
  if content = [] then .error .storageError else .ok (octetAt content 0).toNat

/-- `Headers.Get_Headers_Offset`. -/
def getHeadersOffset (self : Frame) : Nat :=
  (if self.hasFlag paddedFlag then 1 else 0) + (if self.hasFlag priorityFlag then 5 else 0)

/-- The priority fields that start at an index of the payload. -/
def priorityAt (content : Octets) (index : Nat) : PriorityPayload where
  streamDependency := bigEndian ((List.range 4).map fun k => octetAt content (index + k)) % 2 ^ 31
  weight := octetAt content (index + 4)

/-- `Headers.Get_Priority`. -/
def getPriority (self : Frame) (content : Octets) : Except Exn PriorityPayload :=
  if content = [] then
    .error .storageError
  else
    .ok (priorityAt content (if self.hasFlag paddedFlag then 1 else 0))

/-- `Data.Payload_Length`: the pad length is added to 1 as an octet. -/
def payloadLength (self : Frame) (content : Octets) : Except Exn Nat :=
  if self.hasFlag paddedFlag then do
    let pad ← padLength content
    let padding ← positive ((pad + 1) % 256)
    let length ← naturalSub content.length padding
    positive length
  else
    positive content.length

/-- `Headers.Content_Length` and `Continuation.Content_Length`. -/
def contentLength (self : Frame) : Except Exn Nat :=
  match self.payload with
  | .headers content =>
      if content = [] then
        .error .constraintError
      else do
        let pad ← if self.hasFlag paddedFlag then padLength content else pure 0
        naturalSub content.length (self.getHeadersOffset + pad)
  | .continuation content => if content = [] then .error .constraintError else .ok content.length
  | _ => .error .constraintError

/-- The octets that `Get` gives for the indexes from 1 to the content length. -/
def fragment (self : Frame) (length : Nat) : Octets :=
  match self.payload with
  | .headers content => (content.drop self.getHeadersOffset).take length
  | .continuation content => content.take length
  | _ => []

/-! ## Validation -/

/-- The length that the frames of a kind must have, 0 when it is free. -/
def fixedSize : Kind → Nat
  | .priority => 5
  | .ping => 8
  | .rstStream => 4
  | .windowUpdate => 4
  | _ => 0

/-- `Frame.Validate`. -/
def validateHeader (settings : Connection) (kind : Kind) (length : Nat) : Except Exn ErrorCode := do
  let maxFrameSize ← settings.maxFrameSize
  if maxFrameSize < length ∨ (fixedSize kind ≠ 0 ∧ length ≠ fixedSize kind) then
    return .frameSizeError
  else if kind = .invalid then
    return .protocolError
  else
    return .noError

/-- The check of one setting in `Settings.Validate`. -/
def validateSetting (entry : SettingsPayload) : ErrorCode :=
  if entry.id = .maxFrameSize ∧ ¬ (2 ^ 14 ≤ entry.value.toNat ∧ entry.value.toNat ≤ 2 ^ 24 - 1) then
    .protocolError
  else if entry.id = .enablePush ∧ 1 < entry.value.toNat then
    .protocolError
  else if entry.id = .initialWindowSize ∧ 2 ^ 31 - 1 < entry.value.toNat then
    .flowControlError
  else
    .noError

/-- The loop of `Settings.Validate`: the first error. -/
def validateSettings : SettingsSet → ErrorCode
  | [] => .noError
  | entry :: entries =>
      if validateSetting entry ≠ .noError then validateSetting entry else validateSettings entries

/-- `Validate`, with the check of each kind before that of the header. -/
def validate (self : Frame) (settings : Connection) : Except Exn ErrorCode :=
  let header := validateHeader settings self.kind self.length
  match self.payload with
  | .unread _ => header
  | .data content =>
      if self.streamId = 0 then
        .ok .protocolError
      else if self.hasFlag paddedFlag then do
        let pad ← padLength content
        if self.length ≤ pad + 1 then return .protocolError else header
      else
        header
  | .headers content =>
      if self.streamId = 0 then
        .ok .protocolError
      else do
        let padded ← if self.hasFlag paddedFlag then padLength content else pure 0
        if self.hasFlag paddedFlag ∧ self.length ≤ self.getHeadersOffset + padded then
          return .protocolError
        else if self.hasFlag priorityFlag then do
          let priority ← self.getPriority content
          if priority.streamDependency = self.streamId then return .protocolError else header
        else
          header
  | .priority payload =>
      if self.streamId = 0 ∨ self.streamId = payload.streamDependency then
        .ok .protocolError
      else
        header
  | .rstStream _ => if self.streamId = 0 then .ok .protocolError else header
  | .settings values =>
      if self.streamId ≠ 0 then
        .ok .protocolError
      else if self.hasFlag ackFlag ∧ self.length ≠ 0 then
        .ok .frameSizeError
      else if self.length % 6 ≠ 0 then
        .ok .frameSizeError
      else
        match values with
        | none => .error .constraintError
        | some values =>
            if validateSettings values ≠ .noError then
              .ok (validateSettings values)
            else
              header
  | .pushPromise _ => if self.streamId = 0 then .ok .protocolError else header
  | .ping _ => if self.streamId ≠ 0 then .ok .protocolError else header
  | .goAway _ => if self.streamId ≠ 0 ∨ self.length < 8 then .ok .protocolError else header
  | .windowUpdate sizeIncrement => if sizeIncrement = 0 then .ok .protocolError else header
  | .continuation _ => if self.streamId = 0 then .ok .protocolError else header

/-! ## Reading -/

/-- `Net.Buffered.Read`: the first octets, and those that follow. -/
def readOctets (count : Nat) (octets : Octets) : Except Exn (Octets × Octets) :=
  if count ≤ octets.length then
    .ok (octets.take count, octets.drop count)
  else
    .error .socketError

/-- `Settings_Kind` of an identifier, if it is `'Valid`. -/
def settingsKind (id : Nat) : Option SettingsKind :=
  match id with
  | 1 => some .headerTableSize
  | 2 => some .enablePush
  | 3 => some .maxConcurrentStreams
  | 4 => some .initialWindowSize
  | 5 => some .maxFrameSize
  | 6 => some .maxHeaderListSize
  | _ => none

/-- The settings in the octets of a payload, with their identifiers. -/
def rawSettings : Nat → Octets → List (Nat × UInt32)
  | 0, _ => []
  | size + 1, octets =>
      (bigEndian (octets.take 2), UInt32.ofNat (bigEndian ((octets.drop 2).take 4))) ::
        rawSettings size (octets.drop 6)

/-- The loop of `Settings.Read`: an unknown setting is replaced by the last one. -/
def knownSettings : Nat → List (Nat × UInt32) → SettingsSet
  | 0, _ => []
  | _, [] => []
  | bound + 1, (id, value) :: entries =>
      match settingsKind id with
      | some id => ⟨id, value⟩ :: knownSettings bound entries
      | none =>
          match entries.getLast? with
          | some last => knownSettings bound (last :: entries.dropLast)
          | none => []

/-- `Settings.Read`. -/
def readSettings (length : Nat) (flags : Octet) (streamId : StreamId) (octets : Octets) :
    Except Exn (Frame × Octets) :=
  let size := length / 6
  if size = 0 then
    .ok (⟨length, flags, streamId, .settings (some [])⟩, octets)
  else do
    let (data, rest) ← readOctets length octets
    let entries := rawSettings size data
    let values := knownSettings entries.length entries
    if values = [] then
      return (⟨length, flags, streamId, .settings none⟩, rest)
    else
      return (⟨length - 6 * (size - values.length), flags, streamId, .settings (some values)⟩, rest)

/-- The payload of a kind other than `K_Settings`, from its octets. -/
def payloadOf (kind : Kind) (content : Octets) : Payload :=
  match kind with
  | .data => .data content
  | .headers => .headers content
  | .priority => .priority (priorityAt content 0)
  | .rstStream => .rstStream (bigEndian content)
  | .pushPromise => .pushPromise content
  | .ping => .ping content
  | .goAway => .goAway content
  | .windowUpdate => .windowUpdate (bigEndian content % 2 ^ 31)
  | .continuation => .continuation content
  | .settings => .unread .settings
  | .invalid => .unread .invalid

/-- `Frame.Read`: a frame and the octets after it. -/
def read (settings : Connection) (octets : Octets) : Except Exn (Frame × Octets) := do
  let (header, rest) ← readOctets 9 octets
  let length := bigEndian (header.take 3)
  let kind := Kind.ofOctet (header.getD 3 0)
  let flags := header.getD 4 0
  let streamId := bigEndian (header.drop 5) % 2 ^ 31
  let error ← validateHeader settings kind length
  if error ≠ .noError then
    return (⟨length, flags, streamId, .unread kind⟩, rest)
  else if kind = .settings then
    readSettings length flags streamId rest
  else do
    let (content, rest) ← readOctets length rest
    return (⟨length, flags, streamId, payloadOf kind content⟩, rest)

/-! ## Creation -/

/-- `Data.Create`. -/
def createData (streamId : StreamId) (content : Octets) (endStream : Bool) : Frame where
  length := content.length
  flags := if endStream then endStreamFlag else 0
  streamId := streamId
  payload := .data content

/-- `Ping.Create`. -/
def createPing (data : Octets) (flags : Octet) : Frame where
  length := 8
  flags := flags
  streamId := 0
  payload := .ping data

/-- `Ping.Default_Data`. -/
def defaultPingData : Octets := List.replicate 8 0

/-- `Settings.Create`. -/
def createSettings (settings : SettingsSet) (ack : Bool) : Frame where
  length := 6 * settings.length
  flags := if ack then ackFlag else 0
  streamId := 0
  payload := .settings (some settings)

/-- `Settings.Ack`. -/
def settingsAck : Frame := createSettings [] true

/-- `Window_Update.Create`. -/
def createWindowUpdate (streamId : StreamId) (sizeIncrement : Nat) : Frame where
  length := 4
  flags := 0
  streamId := streamId
  payload := .windowUpdate sizeIncrement

/-- `RST_Stream.Create`. -/
def createRstStream (error : ErrorCode) (streamId : StreamId) : Frame where
  length := 4
  flags := 0
  streamId := streamId
  payload := .rstStream error.pos

/-- `GoAway.Create`: the debug data hold a status code and a message. -/
def createGoAway (streamId : StreamId) (error : ErrorCode) (code : Text) (message : Text) :
    Frame where
  length := 8 + 4 + 5 + message.length
  flags := 0
  streamId := 0
  payload := .goAway (octetsOf 4 streamId ++ octetsOf 4 error.pos ++ text "AWS/" ++ code ++
    text "/" ++ message)

/-- `C_No_Error`, once a frame has been checked, stands for a valid frame. -/
def IsValid (self : Frame) (settings : Connection) : Prop := self.validate settings = .ok .noError

end Frame
end Http2
end AdaWebServer

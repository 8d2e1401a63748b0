import AdaWebServer.Containers.HeaderLines
import AdaWebServer.Net.Channel

/-!
# The SMTP server

One task accepts a client, reads its message, calls back, and goes on with the next client.  An
exception ends the task.
-/

namespace AdaWebServer
namespace Smtp

open Http2 (Octets Exn Positive Text image text)
open Containers (Table)
open Net

/-! ## Replies -/

/-- `Code_Table`. -/
def codeTable : List (Nat × String) :=
  [(211, "System status"), (214, "Help message"), (220, "AdaSC Service ready"),
    (221, "Service closing transmission channel"), (235, "Authentication successful"),
    (334, "Provide BASE64 watchword"), (250, "Requested mail action okay, completed"),
    (251, "User not local; will forward"), (354, "Start mail input; end with <CRLF>.<CRLF>"),
    (421, "Service not available, closing transmission channel"),
    (450, "Requested mail action not taken: mailbox unavailable"),
    (451, "Requested action aborted: local error in processing"),
    (452, "Requested action not taken: insufficient system storage"),
    (500, "Syntax error, command unrecognized"), (501, "Syntax error in parameters or arguments"),
    (502, "Command not implemented"), (503, "Bad sequence of commands"),
    (504, "Command parameter not implemented"),
    (550, "Requested action not taken: mailbox unavailable"),
    (551, "User not local; please try <forward-path>"),
    (552, "Requested mail action aborted: exceeded storage allocation"),
    (553, "Requested action not taken: mailbox name not allowed"), (554, "Transaction failed")]

/-- `Message`, empty for a code that is not in the table. -/
def message (code : Nat) : Text :=
  match codeTable.lookup code with
  | some name => image code ++ text " " ++ text name
  | none => []

/-- The replies of the server. -/
inductive Reply where
  | serviceReady
  | serviceClosing
  | requestedActionOk
  | startMailInput
  | syntaxError

/-- The code of a reply. -/
def Reply.code : Reply → Nat
  | serviceReady => 220
  | serviceClosing => 221
  | requestedActionOk => 250
  | startMailInput => 354
  | syntaxError => 500

/-! ## Lines -/

/-- A line, with the first index of its string. -/
structure Line where
  first : Nat
  first_pos : 0 < first
  characters : Text

namespace Line

/-- The line that `Get_Line` returns of what a socket has received. -/
def readFrom (socket : Buffered) (characters : Text) : Line :=
  ⟨socket.lineFirst, socket.lineFirst_pos, characters⟩

/-- `Line'Last`. -/
def last (line : Line) : Nat := line.first + line.characters.length - 1

/-- `Strings.Fixed.Index` of a character: its position, or 0. -/
def index (line : Line) (character : Http2.Octet) : Nat :=
  match line.characters.idxOf? character with
  | some place => line.first + place
  | none => 0

/-- `Line (Start .. Stop)`, of which the bounds are checked if it is not null. -/
def slice (line : Line) (start stop : Nat) : Trial Exn Text :=
  if start ≤ stop ∧ ¬(line.first ≤ start ∧ stop ≤ line.last) then .error (.raised .constraintError)
  else .ok ((line.characters.take (stop + 1 - line.first)).drop (start - line.first))

end Line

/-! ## A session -/

/-- What the server has received in a session. -/
structure Message where
  headers : Table := {}
  body : Text := []

/-- What a client sends, and how many calls of `Send` it accepts. -/
structure Peer where
  socket : Buffered
  accepts : Nat

/-- The channel to it. -/
def Peer.channel (peer : Peer) : Channel := { socket := peer.socket, accepts := peer.accepts }

/-- A client, and how it goes on after each `STARTTLS` for which the negotiation succeeds. -/
structure Client where
  peer : Peer
  upgrades : List Peer := []

/-- A session. -/
structure Session where
  channel : Channel
  upgrades : List Peer
  received : Message := {}

/-- An operation on a channel of which only the exception matters. -/
def attempt {α : Type} (operation : Channeling α) (channel : Channel) : Trial Exn (α × Channel) :=
  match operation channel with
  | .ok result channel => .ok (result, channel)
  | .error exn _ => .error (.raised exn)

namespace Session

/-- `Get_Line`. -/
def getLine (inputLimit : Positive) (session : Session) : Trial Exn (Line × Session) := do
  let (characters, channel) ← attempt (Channel.getLine inputLimit) session.channel
  return (.readFrom session.channel.socket characters, { session with channel })

/-- `Put_Line` of a message. -/
def putLine (reply : Reply) (session : Session) : Trial Exn Session := do
  let (_, channel) ← attempt (Channel.putLine (message reply.code)) session.channel
  return { session with channel }

/-- `Flush`. -/
def flush (session : Session) : Trial Exn Session := do
  let (_, channel) ← attempt Channel.flush session.channel
  return { session with channel }

/-- How many octets are left to be read, and how many channels. -/
def size (session : Session) : Nat :=
  session.channel.socket.unread.length +
    (session.upgrades.map fun peer => peer.socket.unread.length + 1).sum

/-- The words of the commands. -/
def wordData : Text := text "DATA"
def wordHelo : Text := text "HELO"
def wordMail : Text := text "MAIL"
def wordQuit : Text := text "QUIT"
def wordRcpt : Text := text "RCPT"
def wordStartTls : Text := text "STARTTLS"

/-- A turn of `Read_Message_Header`. -/
def headerTurn (inputLimit : Positive) (session : Session) :
    Trial Exn (Turn Session Session) := do
  let (line, session) ← session.getLine inputLimit
  if line.characters = [] then return .leave session
  let splitPoint := line.index 58
  let name ← line.slice line.first (splitPoint - 1)
  let value ← line.slice (splitPoint + 2) line.last
  match session.received.headers.added name value with
  | .ok headers => return .again { session with received := { session.received with headers } }
  | .error exn => .error (.raised exn)

/-- A turn of the loop of `Read_Message_Body` over the lines of the body. -/
def bodyTurn (inputLimit : Positive) (session : Session) : Trial Exn (Turn Session Session) := do
  let (line, session) ← session.getLine inputLimit
  if line.characters = [46] then return .leave session
  let content :=
    if line.characters.head? = some 46 then line.characters.drop 1 else line.characters
  return .again { session with
    received := { session.received with body := session.received.body ++ content ++ crlf } }

/-- `Read_Message_Body`. -/
def readMessageBody (inputLimit : Positive) (session : Session) : Trial Exn Session := do
  let session ← turns (headerTurn inputLimit) (session.size + 1) session
  turns (bodyTurn inputLimit) (session.size + 1) session

/-- `Last` of a line, which is checked to be positive. -/
def lastOf (line : Line) : Nat := if line.index 32 = 0 then line.last else line.index 32 - 1

/-- `Cmd` of a line. -/
def command (line : Line) : Trial Exn Text :=
  if lastOf line = 0 then .error (.raised .constraintError) else line.slice line.first (lastOf line)

/-- `Secure_Server`, and the socket that is used from then on. -/
def startTls (session : Session) : Trial Exn Session :=
  match session.upgrades with
  | [] => .error (.raised .socketError)
  | secured :: upgrades => do
      let session ← session.putLine .serviceReady
      let session ← session.flush
      return { session with channel := secured.channel, upgrades }

/-- What a turn of `Read_Message` does for a command. -/
def obey (inputLimit : Positive) (cmd : Text) (session : Session) :
    Trial Exn (Turn Session Session) :=
  if cmd = wordData then do
    let session ← session.putLine .startMailInput
    let session ← session.readMessageBody inputLimit
    let session ← session.putLine .requestedActionOk
    return .again session
  else if cmd = wordHelo ∨ cmd = wordMail ∨ cmd = wordRcpt then do
    let session ← session.putLine .requestedActionOk
    return .again session
  else if cmd = wordQuit then do
    let session ← session.putLine .serviceClosing
    return .leave session
  else if cmd = wordStartTls then do
    let session ← session.startTls
    return .again session
  else do
    let session ← session.putLine .syntaxError
    return .again session

/-- A turn of `Read_Message`. -/
def turn (inputLimit : Positive) (session : Session) : Trial Exn (Turn Session Session) := do
  let (line, session) ← session.getLine inputLimit
  let cmd ← command line
  session.obey inputLimit cmd

end Session

/-- `Get_Message`. -/
def getMessage (inputLimit : Positive) (client : Client) : Trial Exn Message := do
  let session ← Session.putLine .serviceReady
    { channel := client.peer.channel, upgrades := client.upgrades }
  let session ← turns (Session.turn inputLimit) (session.size + 1) session
  let session ← session.flush
  return session.received

/-- What the task has done with a sequence of clients: the messages with which it has called back, and
what has ended it, if it has not gone back to accepting. -/
structure Handled where
  called : List Message := []
  ended : Option (Stop Exn) := none

/-- `Mail_Handler`. -/
def mailHandler (inputLimit : Positive) : List Client → Handled
  | [] => {}
  | client :: clients =>
      match getMessage inputLimit client with
      | .ok message =>
          let later := mailHandler inputLimit clients
          { later with called := message :: later.called }
      | .error stop => { ended := some stop }

end Smtp
end AdaWebServer

import AdaWebServer.Containers.HeaderLines
import AdaWebServer.Resources.MemoryRuns
import AdaWebServer.Url.Coding

/-!
# Parameters

A list of parameters is a table, to which the pairs of a string or of a stream are added.
-/

namespace AdaWebServer
namespace Containers

open Http2 (Octet Octets Text text image)
open Resources (MemoryStream)

/-- The substrings between ampersands; nothing behind the last one is no substring. -/
def parameterStrings (current : Text) : Text → List Text
  | [] => if current = [] then [] else [current]
  | octet :: rest =>
      if octet = 38 then current :: parameterStrings [] rest
      else parameterStrings (current ++ [octet]) rest

namespace Table

/-- `Add` of a pair, with its message if there are too many. -/
def addParameter (maxParameters : Nat) (state : Nat × Table) (parameter : Text) :
    Trial Failure (Nat × Table) :=
  let count := state.1 + 1
  let name := parameter.takeWhile (· ≠ 61)
  let value := (parameter.dropWhile (· ≠ 61)).drop 1
  if count ≤ maxParameters then do
    let table ← trial (state.2.added (Url.decode true name) (Url.decode true value))
    return (count, table)
  else
    .error (.raised (.tooManyParameters (text "Maximum number of parameters reached: " ++
      image maxParameters ++ text ", see Config.Max_POST_Parameters.")))

/-- `Add_Internal`, with the count of parameters. -/
def addInternal (maxParameters : Nat) (parameters : Text) (state : Nat × Table) :
    Trial Failure (Nat × Table) :=
  let skipped := if parameters.head? = some 63 then parameters.drop 1 else parameters
  (parameterStrings [] skipped).foldlM (addParameter maxParameters) state

/-- The loop of `URI_Format`. -/
def uriFormatLoop (limit : Nat) (delimiter : Octet) (size : Nat) (parameters : Text) :
    List Element → Text
  | [] => parameters
  | item :: later =>
      let encode := Url.encode Url.inParametersEncodingSet
      let parameters := parameters ++ delimiter :: encode item.name ++
        if item.value = [] then [] else 61 :: encode item.value
      if limit < parameters.length then parameters.take size
      else uriFormatLoop limit 38 parameters.length parameters later

/-- `URI_Format`. -/
def uriFormat (limit : Nat) (parameters : Table) : Text :=
  uriFormatLoop limit 63 1 [] parameters.data

/-- The state of `Add` of a stream: what is in the buffer, whether no ampersand was found once, the
count, the list and the stream. -/
structure Adding where
  buffer : Octets
  wasNotFound : Bool
  count : Nat
  parameters : Table
  stream : MemoryStream

/-- The octet ends a line. -/
def isLineEnd (octet : Octet) : Bool := octet = 13 || octet = 10

/-- The parts in front of the last ampersand and behind it. -/
def atLastAmp (octets : Octets) : Option (Octets × Octets) :=
  if 38 ∈ octets then
    let behind := octets.reverse.takeWhile (· ≠ 38)
    some (octets.take (octets.length - behind.length - 1), behind.reverse)
  else none

/-- A turn of the loop of `Add` of a stream, with a buffer of the given length. -/
def addTurn (maxParameters length : Nat) (adding : Adding) :
    Trial Failure (Turn Adding (Table × MemoryStream)) := do
  let (octets, stream) ← trial (adding.stream.read (length - adding.buffer.length))
  let line := octets.takeWhile fun octet => !isLineEnd octet
  let full := adding.buffer.length + line.length = length
  match atLastAmp line with
  | some (before, behind) => do
      let (count, parameters) ←
        addInternal maxParameters (adding.buffer ++ before) (adding.count, adding.parameters)
      if full then return .again { adding with buffer := behind, count, parameters, stream }
      else do
        let (_, parameters) ← addInternal maxParameters behind (count, parameters)
        return .leave (parameters, stream)
  | none =>
      if adding.wasNotFound ∧ line ≠ [] then
        .error (.raised (.tooLongParameter
          (text "HTTP parameter line too long : " ++ adding.parameters.uriFormat 64)))
      else do
        let (count, parameters) ←
          addInternal maxParameters (adding.buffer ++ line) (adding.count, adding.parameters)
        if full then
          return .again { buffer := [], wasNotFound := true, count, parameters, stream }
        else return .leave (parameters, stream)

/-- `Add` of a stream. -/
def addStream (maxParameters inputLineSizeLimit : Nat) (times : Nat) (parameters : Table)
    (stream : MemoryStream) : Trial Failure (Table × MemoryStream) :=
  let length := min inputLineSizeLimit stream.length
  if length = 0 then return (parameters, stream)
  else
    turns (addTurn maxParameters length) times
      { buffer := [], wasNotFound := false, count := 0, parameters, stream }

end Table
end Containers
end AdaWebServer

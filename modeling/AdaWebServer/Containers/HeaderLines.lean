import AdaWebServer.Containers.Headers
import AdaWebServer.Foundations.Loops

/-!
# Reading header lines

Header lines are read up to an empty line, from wherever lines come.  A line that starts with a blank
continues the one before it.
-/

namespace AdaWebServer
namespace Containers

open Http2 (Octet Text Exn one_positive text)

/-- What the readers of messages raise. -/
inductive Failure where
  /-- An exception of the operations that they call. -/
  | exception (exn : Exn)
  /-- `Format_Error`. -/
  | formatError (line : Text)
  /-- `HTTP_Utils.Name_Error`, and that of `Simple_Name`. -/
  | nameError (message : Text)
  /-- `HTTP_Utils.Device_Error`. -/
  | deviceError (message : Text)
  /-- `Constraint_Error` with a message. -/
  | constraintError (message : Text)
  /-- `Too_Long_Parameter`. -/
  | tooLongParameter (message : Text)
  /-- `Too_Many_Parameters`. -/
  | tooManyParameters (message : Text)
  deriving DecidableEq

/-- A computation that raises the exceptions of the operations that it calls. -/
def trial {α : Type} : Except Exn α → Trial Failure α
  | .ok result => .ok result
  | .error exn => .error (.raised (.exception exn))

/-- `RFC2616_Separator_Set`. -/
def separators : Text := text " ()<>@,;:\\\"/[]?=\x7b\x7d" ++ [9]

/-- The character is in `RFC2616_Token_Set`. -/
def isToken (octet : Octet) : Bool := 32 ≤ octet && octet ≤ 126 && octet ∉ separators

/-- The character is in `OWS`. -/
def isBlank (octet : Octet) : Bool := octet = 32 || octet = 9

/-- `Fixed.Trim` of blanks. -/
def trimBlanks (value : Text) : Text :=
  ((value.dropWhile isBlank).reverse.dropWhile isBlank).reverse

namespace Table

/-- `Parse_Header_Line`. -/
def parseHeaderLine (line : Text) (headers : Table) : Trial Failure Table :=
  match line.dropWhile isToken with
  | 58 :: value =>
      if line.takeWhile isToken = [] then .error (.raised (.formatError line))
      else trial (headers.added (line.takeWhile isToken) (trimBlanks value))
  | _ => .error (.raised (.formatError line))

/-- `Reset`. -/
def headersReset : Table := { caseSensitive := false }

/-- A line that continues the one before it. -/
def continues (line : Text) : Bool := line.head?.any isBlank

section Reading

variable {Source : Type} (getLine : Source → Trial Failure (Text × Source))

/-- A turn of the loop of `Read_G`: the next line is read. -/
def readTurn : Text × Table × Source → Trial Failure (Turn (Text × Table × Source) (Table × Source))
  | (line, headers, source) =>
      if line = [] then return .leave (headers, source)
      else do
        let (nextLine, source) ← getLine source
        if continues nextLine then return .again (line ++ nextLine, headers, source)
        else do
          let headers ← headers.parseHeaderLine line
          return .again (nextLine, headers, source)

/-- `Read_G`. -/
def readHeaders (times : Nat) (source : Source) : Trial Failure (Table × Source) := do
  let (line, source) ← getLine source
  turns (readTurn getLine) times (line, headersReset, source)

end Reading

end Table
end Containers
end AdaWebServer

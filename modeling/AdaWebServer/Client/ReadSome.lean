import AdaWebServer.Net.Lines

/-!
# Reading the body of a response

The client reads the body of a response in pieces.  The transfer mode that the header asks for and the
number of octets that remain, of the body or of the chunk, say where the body ends.
-/

namespace AdaWebServer
namespace Client

open Http2 (Octet Octets Text Exn Positive digitValue natural naturalLast text)
open Net (Buffered Buffering)

/-- How the body of the response is transferred. -/
inductive Transfer where
  | none
  | untilClose
  | contentLength
  | chunked
  | endResponse
  deriving DecidableEq, Repr

/-- The part of an HTTP connection that the body is read with. -/
structure HttpConnection where
  transfer : Transfer
  length : Nat
  socket : Buffered

/-- An operation on an HTTP connection. -/
abbrev Reading (α : Type) := HttpConnection → EStateM.Result Exn HttpConnection α

/-- One more digit of a hexadecimal number, in `Natural`. -/
def addHexDigit (value : Nat) (digit : Octet) : Except Exn Nat :=
  match digitValue digit with
  | some digit => natural (value * 16 + digit)
  | none => .error .constraintError

/-- `Utils.Hex_Value`. -/
def hexValue (hex : Text) : Except Exn Nat := hex.foldlM addHexDigit 0

/-- `Strings.Fixed.Trim` at both ends. -/
def trim (line : Text) : Text :=
  ((line.dropWhile (· = 32)).reverse.dropWhile (· = 32)).reverse

/-- The transfer mode that `Get_Response` chooses, from the encoding and the length that the header of
the response gives. -/
def chooseTransfer (withBody : Bool) (encoding : Text) (contentLength : Option Nat)
    (socket : Buffered) : HttpConnection :=
  if withBody = false then { transfer := .contentLength, length := 0, socket }
  else if encoding = text "chunked" then { transfer := .chunked, length := 0, socket }
  else
    match contentLength with
    | Option.none => { transfer := .untilClose, length := 0, socket }
    | some length => { transfer := .contentLength, length, socket }

namespace HttpConnection

/-- An operation on the socket. -/
def onSocket {α : Type} (operation : Buffering α) : Reading α := fun connection =>
  match operation connection.socket with
  | .ok a socket => .ok a { connection with socket }
  | .error exn socket => .error exn { connection with socket }

/-- `Read_Limited`. -/
def readLimited (size : Nat) : Reading Octets := fun connection =>
  match connection.onSocket (Buffered.read (min size connection.length)) with
  | .ok data next => .ok data { next with length := next.length - data.length }
  | .error exn next => .error exn next

/-- `Skip_Line`, after some data have been read. -/
def skipLine (inputLimit : Positive) (data : Octets) : Reading Octets := fun connection =>
  match connection.onSocket (Buffered.getLine inputLimit) with
  | .ok _ next => .ok data next
  | .error exn next => .error exn next

/-- The size of the next chunk is read. -/
def nextChunk (inputLimit : Positive) : Reading Unit := fun connection =>
  match connection.onSocket (Buffered.getLine inputLimit) with
  | .ok line next =>
      match hexValue (trim line) with
      | .ok length => .ok () { next with length }
      | .error exn => .error exn next
  | .error exn next => .error exn next

/-- A part of the chunk is read, and the end of the chunk is skipped. -/
def readChunk (inputLimit : Positive) (size : Nat) : Reading Octets := fun connection =>
  match connection.readLimited size with
  | .ok data next => if next.length = 0 then next.skipLine inputLimit data else .ok data next
  | .error exn next => .error exn next

/-- The body is over. -/
def finish : Reading Octets := fun connection =>
  .ok [] { connection with transfer := .endResponse }

/-- `Read_Internal`, in which a buffer of the given size is filled. -/
def readInternal (inputLimit : Positive) (size : Nat) : Reading Octets := fun connection =>
  match connection.transfer with
  | .endResponse => .ok [] connection
  | .untilClose =>
      match connection.onSocket (Buffered.read size) with
      | .error .socketError next => next.finish
      | result => result
  | .contentLength =>
      if connection.length = 0 then connection.finish else connection.readLimited size
  | .chunked =>
      if connection.length = 0 then
        match connection.nextChunk inputLimit with
        | .ok () opened =>
            if opened.length = 0 then
              match opened.skipLine inputLimit [] with
              | .ok _ next => next.finish
              | .error exn next => .error exn next
            else opened.readChunk inputLimit size
        | .error exn next => .error exn next
      else connection.readChunk inputLimit size
  | .none => .error .constraintError connection

/-- `Read_Some`, without a decoding filter. -/
def readSome (inputLimit : Positive) (size : Nat) : Reading Octets := readInternal inputLimit size

/-- The loop of `Read`, with the space that is left in the buffer, at most so many times. -/
def readLoop (inputLimit : Positive) :
    Nat → Nat → Octets → HttpConnection → EStateM.Result Exn HttpConnection Octets
  | 0, _, _, connection => .error .storageError connection
  | times + 1, space, data, connection =>
      match connection.readSome inputLimit space with
      | .ok more next =>
          if more.length = space ∨ more = [] then .ok (data ++ more) next
          else readLoop inputLimit times (space - more.length) (data ++ more) next
      | .error exn next => .error exn next

/-- `Read`. -/
def read (inputLimit : Positive) (size : Nat) : Reading Octets :=
  readLoop inputLimit (size + 1) size []

end HttpConnection
end Client
end AdaWebServer

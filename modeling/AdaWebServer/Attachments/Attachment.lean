import AdaWebServer.Containers.Headers
import AdaWebServer.Translator.Base64

/-!
# Attachments

An attachment is a part with its header lines and one content, or a group of alternative contents.  Its
length is computed when it is added to the list.
-/

namespace AdaWebServer
namespace Attachments

open Containers Http2 Translator

/-- What the attachments take from other units: the media types of file names, the simple name of a path,
the files, and the random part and number of the boundaries of alternative groups. -/
structure Surroundings where
  contentType : Text → Text
  isText : Text → Bool
  simpleName : Text → Except Exn Text
  file : Text → Except Exn Octets
  unique : Nat → Text

/-- `Encoding`. -/
inductive Encoding where
  | none
  | base64
  deriving DecidableEq

/-- `Content_Kind`, with the content in memory. -/
inductive ContentKind where
  | file
  | data (content : Text)
  deriving DecidableEq

/-- `Content`. -/
structure Content where
  kind : ContentKind
  length : Nat
  contentId : Text
  contentType : Text
  filename : Text
  encode : Encoding

/-- `Element`; the header lines of an alternative group are never used. -/
inductive Element where
  | data (headers : Table) (totalLength : Nat) (content : Content)
  | alternative (totalLength : Nat) (parts : List Content)

/-- `Total_Length`. -/
def Element.totalLength : Element → Nat
  | .data _ totalLength _ => totalLength
  | .alternative totalLength _ => totalLength

/-! ## Contents -/

variable (system : Surroundings)

/-- `File`. -/
def file (filename : Text) (encode : Encoding) (contentId contentType : Text) :
    Except Exn Content := do
  let octets ← system.file filename
  let length ← natural octets.length
  return { kind := .file, length, contentId, contentType, filename, encode }

/-- `Value`. -/
def value (data name : Text) (encode : Encoding) (contentId contentType : Text) :
    Except Exn Content := do
  let length ← natural data.length
  let stored := if encode = .base64 then base64Encode data else data
  let _ ← natural stored.length
  return { kind := .data stored, length, contentId, contentType, filename := name, encode }

/-- What a content is made from. -/
inductive Source where
  | file (filename : Text) (encode : Encoding) (contentId contentType : Text)
  | value (data name : Text) (encode : Encoding) (contentId contentType : Text)

/-- The content that is made. -/
def Source.content : Source → Except Exn Content
  | .file filename encode contentId contentType =>
      Attachments.file system filename encode contentId contentType
  | .value data name encode contentId contentType =>
      Attachments.value data name encode contentId contentType

/-! ## The list -/

/-- The content type of a part that is a file. -/
def namedType (headers : Table) (hasContentType : Bool) (name contentType : Text) :
    Except Exn Table :=
  if contentType = [] then
    if hasContentType then .ok headers
    else
      headers.added (text "Content-Type")
        (system.contentType name ++ text "; name=\"" ++ name ++ text "\"")
  else
    headers.updated (text "Content-Type") (contentType ++ text "; name=\"" ++ name ++ text "\"")

/-- The header lines of a part that is a file. -/
def fileHeaders (name : Text) (data : Content) (headers : Table) : Except Exn Table := do
  let hasContentType := headers.exist (text "Content-Type")
  let hasContentTE := headers.exist (text "Content-Transfer-Encoding")
  let simpleName ← system.simpleName name
  let disposed ← headers.added (text "Content-Disposition")
    (text "attachment; filename=\"" ++ simpleName ++ text "\"")
  let typed ← namedType system disposed hasContentType name data.contentType
  if data.encode = .none ∧ ¬hasContentTE then
    typed.added (text "Content-Transfer-Encoding")
      (if system.isText (system.contentType name) then text "8bit" else text "binary")
  else .ok typed

/-- The header lines of a part that is no file. -/
def plainHeaders (data : Content) (headers : Table) : Except Exn Table :=
  if data.contentType ≠ [] then headers.updated (text "Content-Type") data.contentType
  else .ok headers

/-- The header lines with which a part is stored. -/
def partHeaders (name : Text) (data : Content) (headers : Table) : Except Exn Table := do
  let named ←
    if data.filename = [] then plainHeaders data headers else fileHeaders system name data headers
  let encoded ←
    if data.encode = .base64 then named.updated (text "Content-Transfer-Encoding") (text "base64")
    else .ok named
  if data.contentId ≠ [] then
    encoded.added (text "Content-ID") (text "<" ++ data.contentId ++ text ">")
  else .ok encoded

/-- `Add` of a content. -/
def add (attachments : List Element) (name : Text) (data : Content) (headers : Table) :
    Except Exn (List Element) := do
  let headersLength ← headers.length
  let totalLength ← natural (data.length + headersLength)
  let stored ← partHeaders system name data headers
  return attachments ++ [.data stored totalLength data]

/-- `Add` of a file. -/
def addFile (attachments : List Element) (filename contentId : Text) (headers : Table) (name : Text)
    (encode : Encoding) : Except Exn (List Element) := do
  let data ← file system filename encode contentId (system.contentType filename)
  if name = [] then add system attachments filename data headers
  else add system attachments name data headers

/-- `Add` of an alternative group, whose `Total_Length` is never assigned. -/
def addAlternatives (attachments : List Element) (totalLength : Nat) (parts : List Content) :
    List Element :=
  attachments ++ [.alternative totalLength parts]

/-- Calls that build a list of attachments. -/
inductive Call where
  | file (filename contentId : Text) (headers : Table) (name : Text) (encode : Encoding)
  | data (name : Text) (source : Source) (headers : Table)
  | alternatives (totalLength : Nat) (parts : List Source)

/-- Effect of a call. -/
def Call.perform (attachments : List Element) : Call → Except Exn (List Element)
  | .file filename contentId headers name encode =>
      addFile system attachments filename contentId headers name encode
  | .data name source headers => do
      let data ← source.content system
      add system attachments name data headers
  | .alternatives totalLength parts => do
      let parts ← parts.mapM (Source.content system)
      return addAlternatives attachments totalLength parts

/-- The list that calls build. -/
def build (calls : List Call) : Except Exn (List Element) :=
  calls.foldlM (Call.perform system) []

end Attachments
end AdaWebServer

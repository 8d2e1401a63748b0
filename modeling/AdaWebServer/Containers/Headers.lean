import AdaWebServer.Containers.Tables

/-!
# Headers

A list of header lines is a table of names and values.  It is sent line by line, and its length is that
of the lines with the empty line behind them.
-/

namespace AdaWebServer
namespace Containers

open Http2 (Text Exn natural one_positive text)

/-- `CRLF`. -/
def crlf : Text := [13, 10]

/-- The names of request lines and of the status line, which have no colon. -/
def startLines : List Text :=
  [text "GET", text "POST", text "PUT", text "HEAD", text "DELETE", text "CONNECT", text "HTTP/1.1"]

/-- The line of a pair. -/
def Element.line (pair : Element) : Text :=
  if pair.name = [] then []
  else if pair.name ∈ startLines then pair.name ++ text " " ++ pair.value
  else pair.name ++ text ": " ++ pair.value

namespace Table

/-- `Get_Content`, as what is sent altogether. -/
def getContent (headers : Table) (endBlock : Bool) : Text :=
  (headers.data.flatMap fun pair => pair.line ++ crlf) ++ if endBlock then crlf else []

/-- The number of octets of the lines and of the empty line. -/
def octets (headers : Table) : Nat :=
  (headers.data.map fun pair => pair.line.length + 2).sum + 2

/-- `Length`, which counts line by line. -/
def length (headers : Table) : Except Exn Nat := natural headers.octets

/-- `Add`, where a failure leaves no list. -/
def added (headers : Table) (name value : Text) : Except Exn Table :=
  match headers.add name value with
  | .ok () headers => .ok headers
  | .error exn _ => .error exn

/-- `Update`, where a failure leaves no list. -/
def updated (headers : Table) (name value : Text) : Except Exn Table :=
  match headers.update name value ⟨1, one_positive⟩ with
  | .ok () headers => .ok headers
  | .error exn _ => .error exn

theorem added_eq (headers : Table) (name value : Text) :
    ∃ after, headers.added name value = .ok after := by
  simp only [Table.added, Table.add, Table.updateInternal, Table.process]
  rw [if_neg (by simp), if_pos (by simp)]
  exact ⟨_, rfl⟩

theorem length_getContent (headers : Table) :
    (headers.getContent true).length = headers.octets := by
  have lines : ∀ pair : Element, (pair.line ++ crlf).length = pair.line.length + 2 :=
    fun pair => List.length_append
  rw [getContent, List.length_append, List.length_flatMap]
  simp only [lines]
  rfl

end Table
end Containers
end AdaWebServer

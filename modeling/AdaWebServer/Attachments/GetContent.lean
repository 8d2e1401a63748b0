import AdaWebServer.Attachments.Attachment
import AdaWebServer.Foundations.Chunks
import AdaWebServer.Foundations.Outcome

/-!
# The content of attachments

The parts of a list of attachments are sent one after the other, each behind the boundary.  The length
that is declared for the list is the sum of the lengths that were computed when they were added.
-/

namespace AdaWebServer
namespace Attachments

open Containers Http2 Translator Chunks

/-- `Pref_Suf`. -/
def prefSuf : Text := text "--"

/-- `Put_Line (Pref_Suf & Boundary)`. -/
def startLine (boundary : Text) : Text := prefSuf ++ boundary ++ crlf

/-- `Put_Line (Pref_Suf & Boundary & Pref_Suf)`. -/
def endLine (boundary : Text) : Text := prefSuf ++ boundary ++ prefSuf ++ crlf

variable (system : Surroundings)

/-- `Send_Content` of a content. -/
def Content.send (data : Content) : Except Exn Text :=
  match data.kind, data.encode with
  | .file, .none => do
      let octets ← system.file data.filename
      return (pieces 4096 octets).flatten ++ crlf
  | .file, .base64 => do
      let octets ← system.file data.filename
      return (pieces 60 octets).flatMap fun buffer => base64Encode buffer ++ crlf
  | .data content, .none => do
      let _ ← positive content.length
      return (pieces 1024 content).flatten ++ crlf
  | .data content, .base64 => do
      let _ ← positive content.length
      return (pieces 60 content).flatMap fun line => line ++ crlf

/-- A part of an alternative group. -/
def sendPart (boundary : Text) (part : Content) : Except Exn Text := do
  let sent ← part.send system
  return startLine boundary ++ (text "Content-Type: " ++ part.contentType ++ crlf) ++ crlf ++ sent

/-- `L_Boundary`. -/
def nextPart (group : Nat) : Text := text "----=_NextPart_" ++ system.unique group

/-- `Get_MIME_Header` of an embedded alternative group. -/
def mimeHeader (boundary : Text) : Text :=
  text "Content-Type: multipart/alternative; boundary=\"" ++ boundary ++ text "\"" ++ crlf ++ crlf

/-- `Send_Alternative`. -/
def sendAlternative (boundary : Text) (simple : Bool) (group : Nat) (parts : List Content) :
    Except Exn Text :=
  if simple then do
    let sent ← parts.mapM (sendPart system boundary)
    return sent.flatten
  else do
    let sent ← parts.mapM (sendPart system (nextPart system group))
    return startLine boundary ++ mimeHeader (nextPart system group) ++ sent.flatten ++ crlf ++
      endLine (nextPart system group)

/-- `Send_Content` of an attachment. -/
def sendContent (boundary : Text) (headers : Table) (data : Content) : Except Exn Text := do
  let sent ← data.send system
  return startLine boundary ++ (headers.getContent false ++ crlf) ++ sent

/-- `Send_Attachment`. -/
def sendAttachment (boundary : Text) (simple : Bool) (group : Nat) : Element → Except Exn Text
  | .data headers _ data => sendContent system boundary headers data
  | .alternative _ parts => sendAlternative system boundary simple group parts

/-- The number of calls of `Get_MIME_Header`, unless the group is the only attachment. -/
def Element.groups : Element → Nat
  | .data _ _ _ => 0
  | .alternative _ _ => 1

/-- The loop of `Get_Content`, with the number of groups so far. -/
def sendAll (boundary : Text) (simple : Bool) : Nat → List Element → Except Exn Text
  | _, [] => .ok []
  | group, attachment :: later => do
      let sent ← sendAttachment system boundary simple group attachment
      let others ← sendAll boundary simple (group + attachment.groups) later
      return sent ++ others

/-- `Root_MIME (Attachments) = Multipart_Alternative`. -/
def simpleAlternative : List Element → Bool
  | [.alternative _ _] => true
  | _ => false

/-- `Get_Content`, as what is sent altogether. -/
def getContent (attachments : List Element) (boundary : Text) : Except Exn Text :=
  sendAll system boundary (simpleAlternative attachments) 0 attachments

/-- `Length`, which is increased by one attachment after the other. -/
def length (attachments : List Element) (boundary : Text) : Except Exn Nat :=
  positive ((boundary.length + 6) * (attachments.length + 1) + 2 +
    (attachments.map Element.totalLength).sum)

/-! ## Octets that are sent -/

/-- The number of octets of what a content is made from. -/
def Source.size : Source → Nat
  | .file filename _ _ _ =>
      match system.file filename with
      | .ok octets => octets.length
      | .error _ => 0
  | .value data _ _ _ _ => data.length

/-- The number of octets that are sent for a file. -/
def fileOctets (encode : Encoding) (size : Nat) : Nat :=
  match encode with
  | .none => size + 2
  | .base64 => 4 * ((size + 2) / 3) + 2 * ((size + 59) / 60)

/-- The number of octets that are sent for a content in memory. -/
def dataOctets (encode : Encoding) (size : Nat) : Nat :=
  match encode with
  | .none => size + 2
  | .base64 => 4 * ((size + 2) / 3) + 2 * ((4 * ((size + 2) / 3) + 59) / 60)

/-- The number of octets that are sent for a content. -/
def Source.octets : Source → Nat
  | .file filename encode contentId contentType =>
      fileOctets encode (Source.size system (.file filename encode contentId contentType))
  | .value data _ encode _ _ => dataOctets encode data.length

/-- The content type. -/
def Source.contentType : Source → Text
  | .file _ _ _ contentType => contentType
  | .value _ _ _ _ contentType => contentType

/-- A content in memory is not empty. -/
def Source.Sendable : Source → Prop
  | .file _ _ _ _ => True
  | .value data _ _ _ _ => data ≠ []

instance (source : Source) : Decidable source.Sendable :=
  match source with
  | .file _ _ _ _ => isTrue trivial
  | .value data _ _ _ _ => inferInstanceAs (Decidable (data ≠ []))

variable {system}

/-- The lines of a file in Base64. -/
theorem length_file_lines (octets : Octets) :
    ((pieces 60 octets).flatMap fun buffer => base64Encode buffer ++ crlf).length =
      4 * ((octets.length + 2) / 3) + 2 * ((octets.length + 59) / 60) := by
  have weight : ∀ buffer : Octets,
      (base64Encode buffer ++ crlf).length = 4 * ((buffer.length + 2) / 3) + 2 := by
    intro buffer
    rw [List.length_append, length_base64Encode]
    rfl
  rw [List.length_flatMap]
  simp only [weight]
  refine @sum_map_pieces _ 60 (by decide) (fun length => 4 * ((length + 2) / 3) + 2)
    (fun length => 4 * ((length + 2) / 3) + 2 * ((length + 59) / 60)) rfl ?_ octets
  intro length length_pos
  omega

theorem length_data_lines (content : Text) :
    ((pieces 60 content).flatMap fun line => line ++ crlf).length =
      content.length + 2 * ((content.length + 59) / 60) := by
  have weight : ∀ line : Text, (line ++ crlf).length = line.length + 2 := by
    intro line
    rw [List.length_append]
    rfl
  rw [List.length_flatMap]
  simp only [weight]
  refine @sum_map_pieces _ 60 (by decide) (fun length => length + 2)
    (fun length => length + 2 * ((length + 59) / 60)) rfl ?_ content
  intro length length_pos
  omega

/-- A content that has been made has the size and the type of its source. -/
theorem fields_of_content {source : Source} {data : Content}
    (made : source.content system = .ok data) :
    data.length = source.size system ∧ data.contentType = source.contentType := by
  cases source with
  | file filename encode contentId contentType =>
      simp only [Source.content, file, bind_eq_ok_iff, pure_eq_ok] at made
      obtain ⟨octets, found, length, fits, made⟩ := made
      obtain ⟨rfl, _⟩ := natural_eq_ok fits
      cases made
      exact ⟨by simp only [Source.size, found], rfl⟩
  | value data name encode contentId contentType =>
      simp only [Source.content, value, bind_eq_ok_iff, pure_eq_ok] at made
      obtain ⟨length, fits, _, _, made⟩ := made
      obtain ⟨rfl, _⟩ := natural_eq_ok fits
      cases made
      exact ⟨rfl, rfl⟩

/-- The octets of a content are sent unless it is an empty content in memory. -/
theorem outcome_send {source : Source} {data : Content} (made : source.content system = .ok data) :
    Outcome source.Sendable (fun sent => sent.length = source.octets system) (data.send system) := by
  cases source with
  | file filename encode contentId contentType =>
      simp only [Source.content, file, bind_eq_ok_iff, pure_eq_ok] at made
      obtain ⟨octets, found, length, fits, made⟩ := made
      obtain ⟨rfl, _⟩ := natural_eq_ok fits
      cases made
      cases encode with
      | none =>
          simp only [Content.send, found, ok_bind, pure_eq_ok, Source.octets, Source.size, fileOctets]
          refine .pure ?_
          rw [flatten_pieces (by decide), List.length_append]
          rfl
      | base64 =>
          simp only [Content.send, found, ok_bind, pure_eq_ok, Source.octets, Source.size, fileOctets]
          exact .pure (length_file_lines octets)
  | value data name encode contentId contentType =>
      simp only [Source.content, value, bind_eq_ok_iff, pure_eq_ok] at made
      obtain ⟨length, fits, _, stored_fits, made⟩ := made
      obtain ⟨rfl, _⟩ := natural_eq_ok fits
      obtain ⟨rfl, stored_le⟩ := natural_eq_ok stored_fits
      cases made
      constructor
      · intro nonempty
        have data_pos := List.length_pos_of_ne_nil nonempty
        cases encode with
        | none =>
            rw [if_neg (by decide)] at stored_le
            simp only [Content.send, positive_of_le data_pos stored_le, ok_bind, pure_eq_ok,
              Source.octets, dataOctets, reduceCtorEq, if_false]
            refine ⟨_, rfl, ?_⟩
            rw [flatten_pieces (by decide), List.length_append]
            rfl
        | base64 =>
            rw [if_pos rfl, length_base64Encode] at stored_le
            have encoded_pos : 1 ≤ (base64Encode data).length := by
              rw [length_base64Encode]
              omega
            simp only [Content.send, if_true, positive_of_le encoded_pos
              (by rw [length_base64Encode]; exact stored_le), ok_bind, pure_eq_ok, Source.octets,
              dataOctets]
            refine ⟨_, rfl, ?_⟩
            rw [length_data_lines, length_base64Encode]
      · intro empty
        obtain rfl : data = [] := not_not.mp empty
        cases encode <;> exact ⟨_, rfl⟩

end Attachments
end AdaWebServer

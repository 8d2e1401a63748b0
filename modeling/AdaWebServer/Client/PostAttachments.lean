import AdaWebServer.Attachments.GetContent
import Mathlib.Algebra.BigOperators.Group.List.Basic
import Mathlib.Data.List.Forall2

/-!
# Posting attachments

The client declares the length of a multipart body before it writes the root part, the attachments and
the closing boundary.  The declared length takes the extra header lines of an attachment for all of its
header lines, and the size of a content for what is sent of it.
-/

namespace AdaWebServer
namespace Client

open Containers Http2 Attachments

/-- `Build_Root_Part_Header`. -/
def buildRootPartHeader (contentType : Text) : Except Exn Table := do
  let header ← Table.added {} (text "Content-Type") contentType
  header.added (text "Content-ID") (text "<rootpart>")

/-- `Content_Length`. -/
def contentLength (boundary contentType : Text) (data : Octets) (attachments : List Attachments.Element) :
    Except Exn Nat := do
  let rootPartHeader ← buildRootPartHeader contentType
  let headerLength ← rootPartHeader.length
  let attachmentsLength ← Attachments.length attachments boundary
  return 2 + boundary.length + 2 + headerLength + data.length + attachmentsLength

/-- What `Internal_Post_With_Attachment_1` writes behind the header of the message. -/
def postBody (system : Surroundings) (boundary contentType : Text) (data : Octets)
    (attachments : List Attachments.Element) : Except Exn Octets := do
  let rootPartHeader ← buildRootPartHeader contentType
  let parts ← getContent system attachments boundary
  return startLine boundary ++ rootPartHeader.getContent true ++
    (if data.length ≠ 0 then data ++ crlf else []) ++ parts ++ endLine boundary

/-- The body is written, and its length has been declared. -/
def Declared (system : Surroundings) (boundary contentType : Text) (data : Octets)
    (attachments : List Attachments.Element) : Prop :=
  ∃ length body, contentLength boundary contentType data attachments = .ok length ∧
    postBody system boundary contentType data attachments = .ok body ∧ body.length = length

/-! ## What the declared length leaves out -/

/-- What a call adds to the list: a content under a name and with extra header lines, or a group. -/
inductive Part where
  | content (name : Text) (source : Source) (headers : Table)
  | group (totalLength : Nat) (parts : List Source)

variable (system : Surroundings)

/-- The part that a call adds. -/
def partOf : Attachments.Call → Part
  | .file filename contentId headers name encode =>
      .content (if name = [] then filename else name)
        (.file filename encode contentId (system.contentType filename)) headers
  | .data name source headers => .content name source headers
  | .alternatives totalLength parts => .group totalLength parts

/-- Every content in memory is not empty. -/
def Part.Sendable : Part → Prop
  | .content _ source _ => source.Sendable
  | .group _ parts => ∀ source ∈ parts, source.Sendable

instance : DecidablePred Part.Sendable
  | .content _ source _ => inferInstanceAs (Decidable source.Sendable)
  | .group _ parts => inferInstanceAs (Decidable (∀ source ∈ parts, source.Sendable))

/-- The octets of the header lines that are added to the extra ones of a part, or that replace some. -/
def headersExcess (name : Text) (source : Source) (headers : Table) : Int :=
  match source.content system with
  | .ok data =>
      match partHeaders system name data headers with
      | .ok stored => stored.octets - headers.octets
      | .error _ => 0
  | .error _ => 0

/-- The number of octets of a part of an alternative group. -/
def alternativeOctets (boundary : Text) (source : Source) : Nat :=
  (boundary.length + 4) + (source.contentType.length + 16) + 2 + source.octets system

/-- The number of octets of an alternative group. -/
def groupOctets (boundary : Text) (simple : Bool) (group : Nat) (parts : List Source) : Nat :=
  if simple then (parts.map (alternativeOctets system boundary)).sum
  else
    (boundary.length + 4) + (mimeHeader (nextPart system group)).length +
      (parts.map (alternativeOctets system (nextPart system group))).sum + 2 +
      ((nextPart system group).length + 6)

/-- The octets that the declared length leaves out of a part. -/
def Part.excess (boundary : Text) (simple : Bool) (group : Nat) : Part → Int
  | .content name source headers =>
      headersExcess system name source headers + (source.octets system - (source.size system + 2))
  | .group totalLength parts =>
      groupOctets system boundary simple group parts - (boundary.length + 6 + totalLength)

/-- The number of embedded groups of a part. -/
def Part.groups : Part → Nat
  | .content _ _ _ => 0
  | .group _ _ => 1

/-- The octets that the declared length leaves out of all parts. -/
def excess (boundary : Text) (simple : Bool) : Nat → List Part → Int
  | _, [] => 0
  | group, part :: later =>
      part.excess system boundary simple group + excess boundary simple (group + part.groups) later

/-- The only part is an alternative group. -/
def simpleGroup : List Part → Bool
  | [.group _ _] => true
  | _ => false

/-- The lengths that are declared are numbers of their types. -/
def Countable (boundary contentType : Text) (attachments : List Attachments.Element) : Prop :=
  (∀ header, buildRootPartHeader contentType = .ok header → header.octets ≤ naturalLast) ∧
    (boundary.length + 6) * (attachments.length + 1) + 2 +
      (attachments.map Attachments.Element.totalLength).sum ≤ naturalLast

/-! ## Stored parts -/

/-- The element with which a part is stored. -/
inductive Stored : Part → Attachments.Element → Prop
  | content {name : Text} {source : Source} {headers stored : Table} {data : Content}
      (made : source.content system = .ok data)
      (kept : partHeaders system name data headers = .ok stored) :
      Stored (.content name source headers) (.data stored (data.length + headers.octets) data)
  | group {totalLength : Nat} {parts : List Source} {contents : List Content}
      (made : parts.mapM (Source.content system) = .ok contents) :
      Stored (.group totalLength parts) (.alternative totalLength contents)

variable {system}

theorem add_eq_ok {attachments after : List Attachments.Element} {name : Text} {source : Source}
    {headers : Table} {data : Content} (made : source.content system = .ok data)
    (added : add system attachments name data headers = .ok after) :
    ∃ element, after = attachments ++ [element] ∧
      Stored system (.content name source headers) element := by
  simp only [add, Table.length, bind_eq_ok_iff, pure_eq_ok] at added
  obtain ⟨headersLength, counted, totalLength, total, stored, kept, added⟩ := added
  obtain ⟨rfl, _⟩ := natural_eq_ok counted
  obtain ⟨rfl, _⟩ := natural_eq_ok total
  cases added
  exact ⟨_, rfl, .content made kept⟩

/-- A call appends the element of its part. -/
theorem perform_eq_ok {attachments after : List Attachments.Element} {call : Attachments.Call}
    (performed : call.perform system attachments = .ok after) :
    ∃ element, after = attachments ++ [element] ∧ Stored system (partOf system call) element := by
  cases call with
  | file filename contentId headers name encode =>
      simp only [Attachments.Call.perform, addFile, bind_eq_ok_iff] at performed
      obtain ⟨data, made, performed⟩ := performed
      rw [partOf]
      split at performed
      · next unnamed =>
          rw [if_pos unnamed]
          exact add_eq_ok made performed
      · next named =>
          rw [if_neg named]
          exact add_eq_ok made performed
  | data name source headers =>
      simp only [Attachments.Call.perform, bind_eq_ok_iff] at performed
      obtain ⟨data, made, performed⟩ := performed
      exact add_eq_ok made performed
  | alternatives totalLength parts =>
      simp only [Attachments.Call.perform, bind_eq_ok_iff, pure_eq_ok] at performed
      obtain ⟨contents, made, performed⟩ := performed
      cases performed
      exact ⟨_, rfl, .group made⟩

/-- The list that is built has an element for each part. -/
theorem stored_of_build {calls : List Attachments.Call} {attachments : List Attachments.Element}
    (built : build system calls = .ok attachments) :
    List.Forall₂ (Stored system) (calls.map (partOf system)) attachments := by
  have from_any : ∀ (calls : List Attachments.Call) (before after : List Attachments.Element),
      calls.foldlM (Attachments.Call.perform system) before = .ok after →
        ∃ added, after = before ++ added ∧
          List.Forall₂ (Stored system) (calls.map (partOf system)) added := by
    intro calls
    induction calls with
    | nil =>
        intro before after built
        cases built
        exact ⟨[], by rw [List.append_nil], .nil⟩
    | cons call calls ih =>
        intro before after built
        rw [List.foldlM_cons, bind_eq_ok_iff] at built
        obtain ⟨middle, performed, later⟩ := built
        obtain ⟨element, rfl, stored⟩ := perform_eq_ok performed
        obtain ⟨added, rfl, others⟩ := ih _ _ later
        exact ⟨element :: added, by rw [List.append_assoc, List.singleton_append],
          .cons stored others⟩
  obtain ⟨added, rfl, stored⟩ := from_any calls [] attachments built
  exact stored

/-! ## What is sent -/

theorem length_startLine (boundary : Text) : (startLine boundary).length = boundary.length + 4 := by
  rw [startLine, List.length_append, List.length_append, Nat.add_comm (prefSuf).length]
  rfl

theorem length_endLine (boundary : Text) : (endLine boundary).length = boundary.length + 6 := by
  rw [endLine, List.length_append, List.length_append, List.length_append,
    Nat.add_comm (prefSuf).length]
  rfl

theorem length_header_block (headers : Table) :
    (headers.getContent false ++ crlf).length = headers.octets := by
  rw [← Table.length_getContent]
  simp only [Table.getContent, if_true, Bool.false_eq_true, if_false, List.append_nil]

/-- The parts of an alternative group are sent unless one of them is an empty content in memory. -/
theorem outcome_mapM_sendPart (boundary : Text) {parts : List Source} {contents : List Content}
    (made : parts.mapM (Source.content system) = .ok contents) :
    Outcome (∀ source ∈ parts, source.Sendable)
      (fun sent => sent.flatten.length = (parts.map (alternativeOctets system boundary)).sum)
      (contents.mapM (sendPart system boundary)) := by
  induction parts generalizing contents with
  | nil =>
      cases made
      have nothing : Outcome True (fun sent : List Text => sent.flatten.length = 0)
          (.ok [] : Except Exn (List Text)) := .pure rfl
      exact nothing.congr (by simp)
  | cons source parts ih =>
      rw [List.mapM_cons, bind_eq_ok_iff] at made
      obtain ⟨content, content_made, made⟩ := made
      simp only [bind_eq_ok_iff, pure_eq_ok] at made
      obtain ⟨others, others_made, made⟩ := made
      cases made
      have first : Outcome source.Sendable
          (fun sent => sent.length = alternativeOctets system boundary source)
          (sendPart system boundary content) := by
        refine (outcome_send content_made).map fun sent sent_length => ?_
        simp only [List.length_append, length_startLine, sent_length,
          (fields_of_content content_made).2, alternativeOctets,
          show (text "Content-Type: ").length = 14 from by decide, show crlf.length = 2 from rfl]
        omega
      rw [List.mapM_cons]
      refine (first.bind fun sent sent_length => (ih others_made).map fun texts texts_length => ?_).congr
        List.forall_mem_cons.symm
      rw [List.flatten_cons, List.length_append, sent_length, texts_length, List.map_cons,
        List.sum_cons]

theorem outcome_sendAlternative (boundary : Text) (simple : Bool) (group : Nat)
    {parts : List Source} {contents : List Content}
    (made : parts.mapM (Source.content system) = .ok contents) :
    Outcome (∀ source ∈ parts, source.Sendable)
      (fun sent => sent.length = groupOctets system boundary simple group parts)
      (sendAlternative system boundary simple group contents) := by
  cases simple with
  | true =>
      rw [sendAlternative, if_pos rfl, groupOctets, if_pos rfl]
      exact (outcome_mapM_sendPart boundary made).map fun _ => id
  | false =>
      rw [sendAlternative, if_neg Bool.false_ne_true, groupOctets, if_neg Bool.false_ne_true]
      refine (outcome_mapM_sendPart _ made).map fun sent sent_length => ?_
      simp only [List.length_append, length_startLine, length_endLine, sent_length,
        show crlf.length = 2 from rfl]

/-- What is sent for an attachment is what has been counted for it, and the excess of its part. -/
theorem outcome_sendAttachment (boundary : Text) (simple : Bool) (group : Nat) {part : Part}
    {attachment : Attachments.Element} (stored : Stored system part attachment) :
    Outcome part.Sendable (fun sent => (sent.length : Int) =
        boundary.length + 6 + attachment.totalLength + part.excess system boundary simple group)
      (sendAttachment system boundary simple group attachment) := by
  cases stored with
  | content made kept =>
      refine (outcome_send made).map fun sent sent_length => ?_
      simp only [Part.excess, headersExcess, made, kept, Attachments.Element.totalLength,
        (fields_of_content made).1]
      rw [List.length_append, List.length_append, length_startLine, length_header_block, sent_length]
      push_cast
      omega
  | group made =>
      refine (outcome_sendAlternative boundary simple group made).mono fun sent sent_length => ?_
      simp only [Part.excess, Attachments.Element.totalLength, sent_length]
      omega

/-- What is sent is what has been counted, and the excess. -/
theorem outcome_sendAll (boundary : Text) (simple : Bool) (group : Nat) {parts : List Part}
    {attachments : List Attachments.Element}
    (stored : List.Forall₂ (Stored system) parts attachments) :
    Outcome (∀ part ∈ parts, part.Sendable) (fun sent => (sent.length : Int) =
        ((boundary.length + 6) * attachments.length +
          (attachments.map Attachments.Element.totalLength).sum : Nat) +
          excess system boundary simple group parts)
      (sendAll system boundary simple group attachments) := by
  induction stored generalizing group with
  | nil => exact (Outcome.pure (by simp [excess])).congr (by simp)
  | @cons part attachment parts attachments first others ih =>
      have same_groups : attachment.groups = part.groups := by cases first <;> rfl
      rw [sendAll, same_groups]
      refine ((outcome_sendAttachment boundary simple group first).bind fun sent sent_length =>
        (ih (group + part.groups)).map fun texts texts_length => ?_).congr List.forall_mem_cons.symm
      rw [excess, List.length_append, List.length_cons, List.map_cons, List.sum_cons, Nat.mul_add]
      push_cast at texts_length ⊢
      omega

/-- The list has an alternative group only exactly when its parts are one. -/
theorem simple_of_stored {parts : List Part} {attachments : List Attachments.Element}
    (stored : List.Forall₂ (Stored system) parts attachments) :
    simpleAlternative attachments = simpleGroup parts := by
  cases stored with
  | nil => rfl
  | cons first others =>
      cases others with
      | nil => cases first <;> rfl
      | cons second others => cases first <;> cases second <;> rfl

/-! ## The declared length -/

theorem buildRootPartHeader_eq (contentType : Text) :
    ∃ header, buildRootPartHeader contentType = .ok header := by
  obtain ⟨typed, typed_eq⟩ := Table.added_eq {} (text "Content-Type") contentType
  rw [buildRootPartHeader, typed_eq, ok_bind]
  exact Table.added_eq typed _ _

/-- Media types by one rule, and no files. -/
def plainSystem : Surroundings where
  contentType _ := text "text/plain"
  isText _ := true
  simpleName name := .ok name
  file _ := .error .userException
  unique group := text "0123456789." ++ text (toString group)

/-- A value without a content type, to which no header line is added. -/
def untypedValue : List Attachments.Call :=
  [.data (text "note") (.value (text "hello") [] .none [] []) {}]

/-- A value with the default content type. -/
def typedValue : List Attachments.Call :=
  [.data (text "note") (.value (text "hello") [] .none [] (text "text/plain")) {}]

end Client
end AdaWebServer

import AdaWebServer.Http2.Frame

/-!
# Layout of a HEADERS frame

The payload of a HEADERS frame is a pad length and priority fields, where the flags ask for them, a
fragment of a header block, and padding.  `Validate` compares these lengths with that of the payload
only in a padded frame.
-/

namespace AdaWebServer
namespace Http2
namespace Frame

/-- A HEADERS frame as `Headers.Read` makes it, with its payload. -/
def ofHeaders (flags : Octet) (streamId : StreamId) (content : Octets) : Frame :=
  ⟨content.length, flags, streamId, .headers content⟩

/-- `Headers.Get`: an octet of the header block, by its index from 1. -/
def getOctet (self : Frame) (index : Nat) : Except Exn Octet :=
  match self.payload with
  | .headers content =>
      match content[self.getHeadersOffset + index - 1]? with
      | some octet => .ok octet
      | none => .error .constraintError
  | _ => .error .constraintError

/-- Layout of the payload of a HEADERS frame, by the flags. -/
structure Layout (padded priority : Bool) (content : Octets) where
  padField : Octets
  priorityField : Octets
  fragment : Octets
  padding : Octets
  content_eq : content = padField ++ priorityField ++ fragment ++ padding
  padField_length : padField.length = if padded then 1 else 0
  priorityField_length : priorityField.length = if priority then 5 else 0
  /-- The padding is as long as the pad length says. -/
  padding_length : padding.length = (padField.map UInt8.toNat).sum

/-- All fields of the frame are inside its payload, and `Content_Length` and `Get` give the fragment
between them. -/
def LaidOut (self : Frame) (content : Octets) : Prop :=
  ∃ layout : Layout (self.hasFlag paddedFlag) (self.hasFlag priorityFlag) content,
    self.contentLength = .ok layout.fragment.length ∧
      ∀ index octet, layout.fragment[index]? = some octet →
        self.getOctet (index + 1) = .ok octet

/-- The payload is not empty, and the priority fields that the flags ask for are inside it. -/
def Roomy (self : Frame) (content : Octets) : Prop :=
  content ≠ [] ∧ (self.hasFlag priorityFlag → 5 ≤ content.length)

instance (self : Frame) (content : Octets) : Decidable (Roomy self content) :=
  inferInstanceAs (Decidable (_ ∧ _))

section Layouts

variable {flags : Octet} {streamId : StreamId} {content : Octets}

/-- Octets of the pad length and the priority fields of a layout. -/
theorem Layout.offset_eq
    (layout : Layout ((ofHeaders flags streamId content).hasFlag paddedFlag)
      ((ofHeaders flags streamId content).hasFlag priorityFlag) content) :
    (ofHeaders flags streamId content).getHeadersOffset =
      (layout.padField ++ layout.priorityField).length := by
  rw [List.length_append, layout.padField_length, layout.priorityField_length, getHeadersOffset]

/-- A fragment that starts behind the first fields is what `Get` gives. -/
theorem getOctet_of_split {front fragment padding : Octets}
    (split : content = front ++ fragment ++ padding)
    (offset : (ofHeaders flags streamId content).getHeadersOffset = front.length)
    {index : Nat} {octet : Octet} (found : fragment[index]? = some octet) :
    (ofHeaders flags streamId content).getOctet (index + 1) = .ok octet := by
  obtain ⟨inside, -⟩ := List.getElem?_eq_some_iff.mp found
  have position : content[front.length + (index + 1) - 1]? = some octet := by
    rw [split, List.append_assoc, List.getElem?_append_right (by omega),
      List.getElem?_append_left (by omega), ← found]
    congr 1
    omega
  rw [getOctet, ofHeaders]
  simp only
  rw [show Frame.getHeadersOffset ⟨content.length, flags, streamId, .headers content⟩ =
    front.length from offset, position]

/-- Pad length that the flags give. -/
def padding (self : Frame) (content : Octets) : Nat :=
  if self.hasFlag paddedFlag then (octetAt content 0).toNat else 0

theorem contentLength_ofHeaders (nonempty : content ≠ []) :
    (ofHeaders flags streamId content).contentLength =
      naturalSub content.length ((ofHeaders flags streamId content).getHeadersOffset +
        (ofHeaders flags streamId content).padding content) := by
  have payload : (ofHeaders flags streamId content).payload = .headers content := rfl
  rw [contentLength, payload]
  simp only [if_neg nonempty, padding, padLength]
  by_cases padded : (ofHeaders flags streamId content).hasFlag paddedFlag
  · simp only [padded, if_true, ok_bind]
  · simp only [padded]
    rfl

/-- The fields of a payload that is long enough for them. -/
def layoutOf (self : Frame) (content : Octets) (nonempty : content ≠ [])
    (room : self.getHeadersOffset + self.padding content ≤ content.length) :
    Layout (self.hasFlag paddedFlag) (self.hasFlag priorityFlag) content where
  padField := content.take (if self.hasFlag paddedFlag then 1 else 0)
  priorityField := (content.drop (if self.hasFlag paddedFlag then 1 else 0)).take
    (if self.hasFlag priorityFlag then 5 else 0)
  fragment := (content.drop self.getHeadersOffset).take
    (content.length - (self.getHeadersOffset + self.padding content))
  padding := content.drop (content.length - self.padding content)
  content_eq := by
    have offset : self.getHeadersOffset = (if self.hasFlag paddedFlag then 1 else 0) +
      (if self.hasFlag priorityFlag then 5 else 0) := rfl
    have behind : content.drop (content.length - self.padding content) =
        (content.drop self.getHeadersOffset).drop
          (content.length - (self.getHeadersOffset + self.padding content)) := by
      rw [List.drop_drop]
      congr 1
      omega
    rw [behind, List.append_assoc, List.take_append_drop, List.append_assoc, offset,
      ← List.drop_drop, List.take_append_drop, List.take_append_drop]
  padField_length := by
    have occupied := List.length_pos_iff.mpr nonempty
    rw [List.length_take, Nat.min_eq_left]
    split <;> omega
  priorityField_length := by
    simp only [getHeadersOffset] at room
    rw [List.length_take, List.length_drop]
    omega
  padding_length := by
    obtain ⟨first, rest, rfl⟩ := List.exists_cons_of_ne_nil nonempty
    rw [List.length_drop]
    by_cases padded : self.hasFlag paddedFlag
    · simp only [padding, padded, if_true, octetAt, List.getD_cons_zero] at room ⊢
      simp only [List.take_succ_cons, List.take_zero, List.map_cons, List.map_nil, List.sum_cons,
        List.sum_nil]
      omega
    · simp [padding, padded]

theorem laidOut_of_room (nonempty : content ≠ [])
    (room : (ofHeaders flags streamId content).getHeadersOffset +
      (ofHeaders flags streamId content).padding content ≤ content.length) :
    LaidOut (ofHeaders flags streamId content) content := by
  refine ⟨layoutOf _ content nonempty room, ?_, ?_⟩
  · rw [contentLength_ofHeaders nonempty, naturalSub_of_le room]
    simp only [layoutOf, List.length_take, List.length_drop]
    congr 1
    omega
  · intro index octet found
    exact getOctet_of_split (layoutOf _ content nonempty room).content_eq
      (layoutOf _ content nonempty room).offset_eq found

theorem roomy_of_laidOut (laidOut : LaidOut (ofHeaders flags streamId content) content) :
    Roomy (ofHeaders flags streamId content) content := by
  obtain ⟨layout, length, -⟩ := laidOut
  constructor
  · rintro rfl
    cases length
  · intro prioritised
    have lengths := congrArg List.length layout.content_eq
    simp only [List.length_append, layout.priorityField_length, prioritised, if_true] at lengths
    omega

/-- `Validate` compares the fields of a padded frame with its length. -/
theorem padded_room {settings : Connection}
    (accepted : (ofHeaders flags streamId content).validate settings = .ok .noError)
    (padded : (ofHeaders flags streamId content).hasFlag paddedFlag) (nonempty : content ≠ []) :
    (ofHeaders flags streamId content).getHeadersOffset +
      (ofHeaders flags streamId content).padding content < content.length := by
  have payload : (ofHeaders flags streamId content).payload = .headers content := rfl
  rw [validate, payload] at accepted
  simp only [padded, if_true, padLength, if_neg nonempty, ok_bind, true_and] at accepted
  simp only [padding, padded, if_true]
  split at accepted
  · cases accepted
  · split at accepted
    · cases accepted
    · next long => exact not_le.mp long

/-- The fields of an accepted frame are inside its payload exactly when this is not empty and not
shorter than the priority fields. -/
theorem laidOut_iff {settings : Connection}
    (accepted : (ofHeaders flags streamId content).validate settings = .ok .noError) :
    LaidOut (ofHeaders flags streamId content) content ↔
      Roomy (ofHeaders flags streamId content) content := by
  constructor
  · exact roomy_of_laidOut
  · rintro ⟨nonempty, prioritised⟩
    apply laidOut_of_room nonempty
    by_cases padded : (ofHeaders flags streamId content).hasFlag paddedFlag
    · exact (padded_room accepted padded nonempty).le
    · rw [padding, if_neg padded, getHeadersOffset, if_neg padded]
      by_cases priority : (ofHeaders flags streamId content).hasFlag priorityFlag
      · simpa [priority] using prioritised priority
      · simp [priority]

theorem laidOut_padded :
    LaidOut (ofHeaders (paddedFlag ||| priorityFlag) 3 [2, 0, 0, 0, 1, 15, 0x82, 0, 0])
      [2, 0, 0, 0, 1, 15, 0x82, 0, 0] :=
  (@laidOut_iff _ _ _ .initial (by decide)).mpr (by decide)

end Layouts

/-- A frame of one octet is accepted although its flags ask for priority fields. -/
theorem priority_overrun :
    (ofHeaders (endHeadersFlag ||| priorityFlag) 1 [0x82]).validate .initial = .ok .noError ∧
      ¬ LaidOut (ofHeaders (endHeadersFlag ||| priorityFlag) 1 [0x82]) [0x82] :=
  ⟨by decide, fun laidOut => absurd (roomy_of_laidOut laidOut) (by decide)⟩

end Frame
end Http2
end AdaWebServer

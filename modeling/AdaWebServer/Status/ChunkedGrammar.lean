import AdaWebServer.Client.Chunked

/-!
# The grammar of chunked messages

The extensions of a size line and the trailer fields have a grammar of their own.  A text begins with one
chunked message at most.
-/

namespace AdaWebServer
namespace Status

open Client (Chunk Framing SizeLine Hexadecimal)
open Http2 (Octet Octets Text digitValue)
open Net (crlf lf cr)

/-! ## Extensions and trailer fields -/

/-- A character of a token. -/
def TokenChar (c : Octet) : Prop :=
  48 ≤ c ∧ c ≤ 57 ∨ 65 ≤ c ∧ c ≤ 90 ∨ 97 ≤ c ∧ c ≤ 122 ∨
    c ∈ [33, 35, 36, 37, 38, 39, 42, 43, 45, 46, 94, 95, 96, 124, 126]

/-- A token. -/
def Token (token : Text) : Prop := token ≠ [] ∧ ∀ c ∈ token, TokenChar c

/-- A blank or a character that can be seen, among them those that are not ASCII. -/
def FieldChar (c : Octet) : Prop := c = 9 ∨ 32 ≤ c ∧ c ≠ 127

/-- What stands between the quotes of a quoted string. -/
inductive Quoted : Text → Prop
  | nil : Quoted []
  | char {c : Octet} {rest : Text} (field : FieldChar c) (not_quote : c ≠ 34) (not_backslash : c ≠ 92)
      (later : Quoted rest) : Quoted (c :: rest)
  | pair {c : Octet} {rest : Text} (field : FieldChar c) (later : Quoted rest) :
      Quoted (92 :: c :: rest)

/-- The value of an extension is a token or a quoted string. -/
def ExtensionValue (value : Text) : Prop :=
  Token value ∨ ∃ quoted, Quoted quoted ∧ value = 34 :: quoted ++ [34]

/-- Extensions of a size line, with or without values. -/
inductive Extensions : Text → Prop
  | nil : Extensions []
  | name {name rest : Text} (token : Token name) (later : Extensions rest) :
      Extensions (59 :: name ++ rest)
  | value {name value rest : Text} (token : Token name) (valid : ExtensionValue value)
      (later : Extensions rest) : Extensions (59 :: name ++ 61 :: value ++ rest)

/-- A trailer field. -/
def TrailerField (field : Text) : Prop :=
  ∃ name value, Token name ∧ (∀ c ∈ value, FieldChar c) ∧ field = name ++ 58 :: value

/-- The extensions and the trailer fields of a message follow their grammar. -/
structure WellFormed (framing : Framing) : Prop where
  chunks : ∀ chunk ∈ framing.chunks, Extensions chunk.size.extension
  last : Extensions framing.last.extension
  trailers : ∀ field ∈ framing.trailers, TrailerField field

/-! ## Lines -/

/-- A text begins with one line at most. -/
theorem line_unique {line other rest behind : Octets} (no_feed : lf ∉ line) (no_other_feed : lf ∉ other)
    (same : line ++ lf :: rest = other ++ lf :: behind) : line = other ∧ rest = behind := by
  have front : ∀ {octets : Octets} (later : Octets), lf ∉ octets →
      (octets ++ lf :: later).takeWhile (· ≠ lf) = octets := by
    intro octets later absent
    rw [List.takeWhile_append_of_pos fun octet among =>
        decide_eq_true (ne_of_mem_of_not_mem among absent),
      List.takeWhile_cons_of_neg (by decide), List.append_nil]
  have line_eq : line = other := by
    rw [← front rest no_feed, same, front behind no_other_feed]
  subst line_eq
  exact ⟨rfl, (List.cons.inj (List.append_cancel_left same)).2⟩

private theorem crlf_line_unique {line other rest behind : Octets} (no_feed : lf ∉ line)
    (no_other_feed : lf ∉ other) (same : line ++ crlf ++ rest = other ++ crlf ++ behind) :
    line = other ∧ rest = behind := by
  have ends : ∀ octets later : Octets, octets ++ crlf ++ later = (octets ++ [cr]) ++ lf :: later := by
    intro octets later
    simp [crlf]
  rw [ends, ends] at same
  obtain ⟨with_return, rest_eq⟩ := line_unique (by simpa [lf, cr] using no_feed)
    (by simpa [lf, cr] using no_other_feed) same
  exact ⟨List.append_cancel_right with_return, rest_eq⟩

private theorem digits_eq_takeWhile (size : SizeLine) :
    size.text.takeWhile (fun c => (digitValue c).isSome) = size.digits := by
  rw [SizeLine.text, List.takeWhile_append_of_pos size.hexadecimal]
  cases extension_eq : size.extension with
  | nil => rw [List.takeWhile_nil, List.append_nil]
  | cons start later =>
      obtain rfl := size.extension_start start (by rw [extension_eq]; rfl)
      rw [List.takeWhile_cons_of_neg (by decide), List.append_nil]

private theorem value_eq_of_text {size other : SizeLine} (same : size.text = other.text) :
    size.value = other.value := by
  rw [SizeLine.value, SizeLine.value, ← digits_eq_takeWhile, same, digits_eq_takeWhile]

private theorem size_unique {size other : SizeLine} {rest behind : Octets}
    (same : size.octets ++ rest = other.octets ++ behind) : size.value = other.value ∧ rest = behind := by
  obtain ⟨text_eq, rest_eq⟩ := crlf_line_unique size.lf_not_mem_text other.lf_not_mem_text same
  exact ⟨value_eq_of_text text_eq, rest_eq⟩

/-! ## Messages -/

private theorem chunk_value_pos (chunk : Chunk) : 0 < chunk.size.value := by
  rw [chunk.value_eq]
  exact List.length_pos_iff.2 chunk.data_ne

private theorem chunk_append (chunk : Chunk) (rest : Octets) :
    chunk.octets ++ rest = chunk.size.octets ++ (chunk.data ++ (crlf ++ rest)) := by
  rw [Chunk.octets, List.append_assoc, List.append_assoc]

private theorem chunks_unique {chunks others : List Chunk} {last other : SizeLine}
    (last_zero : last.value = 0) (other_zero : other.value = 0) {rest behind : Octets}
    (same : chunks.flatMap Chunk.octets ++ (last.octets ++ rest) =
      others.flatMap Chunk.octets ++ (other.octets ++ behind)) :
    chunks.flatMap Chunk.data = others.flatMap Chunk.data ∧ rest = behind := by
  induction chunks generalizing others with
  | nil =>
      cases others with
      | nil => exact ⟨rfl, (size_unique same).2⟩
      | cons chunk others =>
          rw [List.flatMap_cons, List.append_assoc, chunk_append] at same
          have value_eq := (size_unique same).1
          have value_pos := chunk_value_pos chunk
          omega
  | cons chunk chunks ih =>
      rw [List.flatMap_cons, List.append_assoc, chunk_append] at same
      cases others with
      | nil =>
          have value_eq := (size_unique same).1
          have value_pos := chunk_value_pos chunk
          omega
      | cons second others =>
          rw [List.flatMap_cons, List.append_assoc, chunk_append] at same
          obtain ⟨value_eq, data_eq⟩ := size_unique same
          rw [chunk.value_eq, second.value_eq] at value_eq
          obtain ⟨first_data, later_eq⟩ := List.append_inj data_eq value_eq
          obtain ⟨later_data, rest_eq⟩ := ih (List.append_cancel_left later_eq)
          exact ⟨by rw [List.flatMap_cons, List.flatMap_cons, first_data, later_data], rest_eq⟩

private theorem trailers_unique {fields others : List Text} (some_fields : ∀ field ∈ fields, field ≠ [])
    (field_lines : ∀ field ∈ fields, lf ∉ field) (some_others : ∀ field ∈ others, field ≠ [])
    (other_lines : ∀ field ∈ others, lf ∉ field) {rest behind : Octets}
    (same : fields.flatMap (· ++ crlf) ++ (crlf ++ rest) = others.flatMap (· ++ crlf) ++ (crlf ++ behind)) :
    rest = behind := by
  have no_feed : lf ∉ ([] : Octets) := List.not_mem_nil
  induction fields generalizing others with
  | nil =>
      cases others with
      | nil => exact List.append_cancel_left same
      | cons field others =>
          rw [List.flatMap_cons, List.append_assoc] at same
          obtain ⟨empty, -⟩ :=
            @crlf_line_unique [] field rest _ no_feed (other_lines field List.mem_cons_self) same
          exact absurd empty.symm (some_others field List.mem_cons_self)
  | cons field fields ih =>
      rw [List.flatMap_cons, List.append_assoc] at same
      rw [List.forall_mem_cons] at some_fields field_lines
      cases others with
      | nil =>
          obtain ⟨empty, -⟩ := @crlf_line_unique field [] _ behind field_lines.1 no_feed same
          exact absurd empty some_fields.1
      | cons second others =>
          rw [List.flatMap_cons, List.append_assoc (second ++ crlf)] at same
          rw [List.forall_mem_cons] at some_others other_lines
          obtain ⟨-, later_eq⟩ := crlf_line_unique field_lines.1 other_lines.1 same
          exact ih some_fields.2 field_lines.2 some_others.2 other_lines.2 later_eq

/-- The octets of a message and what follows it. -/
theorem framing_append (framing : Framing) (rest : Octets) :
    framing.octets ++ rest = framing.chunks.flatMap Chunk.octets ++ (framing.last.octets ++
      (framing.trailers.flatMap (· ++ crlf) ++ (crlf ++ rest))) := by
  simp only [Framing.octets, Framing.ending, List.append_assoc]

/-- A text begins with one message at most. -/
theorem framing_unique {framing other : Framing} {rest behind : Octets}
    (same : framing.octets ++ rest = other.octets ++ behind) :
    framing.payload = other.payload ∧ rest = behind := by
  rw [framing_append, framing_append] at same
  obtain ⟨payload_eq, later_eq⟩ := chunks_unique framing.last_zero other.last_zero same
  exact ⟨payload_eq, trailers_unique framing.trailers_ne framing.trailers_line other.trailers_ne
    other.trailers_line later_eq⟩

end Status
end AdaWebServer

import AdaWebServer.Containers.HeaderLines
import AdaWebServer.Containers.TableIndex
import AdaWebServer.Net.Arrivals

/-!
# Header fields on a socket

A field is a line, and the lines that continue it.  Fields are read from a socket up to an empty line, and
a list of headers is written as fields without continuations.
-/

namespace AdaWebServer
namespace Containers

open Http2 (Octets Text Exn Positive text)
open Net (Buffered lf)

namespace Table

/-- `Get_Line` of a socket, for the readers of messages. -/
def socketLine (inputLimit : Positive) (socket : Buffered) : Trial Failure (Text × Buffered) :=
  match Buffered.getLine inputLimit socket with
  | .ok line next => .ok (line, next)
  | .error exn _ => .error (.raised (.exception exn))

/-- `Read`. -/
def readSocket (inputLimit : Positive) (times : Nat) (socket : Buffered) :
    Trial Failure (Table × Buffered) :=
  readHeaders (socketLine inputLimit) times socket

end Table

/-- A field: its name, what follows the colon in its line, and the lines that continue it. -/
structure HeaderField where
  name : Text
  first : Text
  folds : List Text

namespace HeaderField

/-- The line with the name. -/
def line (field : HeaderField) : Text := field.name ++ 58 :: field.first

/-- The name with the joined value. -/
def pair (field : HeaderField) : Element where
  name := field.name
  value := trimBlanks (field.first ++ field.folds.flatten)

/-- The field can be read: its name is a token, its other lines begin with a blank, and all lines are
shorter than the limit. -/
structure Readable (inputLimit : Positive) (field : HeaderField) : Prop where
  named : field.name ≠ []
  token : ∀ octet ∈ field.name, isToken octet = true
  line_within : lf ∉ field.line ∧ field.line.length < inputLimit
  folds_within : ∀ fold ∈ field.folds, lf ∉ fold ∧ fold.length < inputLimit.1
  folded : ∀ fold ∈ field.folds, Table.continues fold = true

end HeaderField

/-- A pair as a field without continuations. -/
def Element.toField (pair : Element) : HeaderField where
  name := pair.name
  first := 32 :: pair.value
  folds := []

/-- A pair can be written and read: its name is a token that begins no request line, its value has no
blanks around it and no end of line in it, and its line is shorter than the limit. -/
structure Element.Writable (inputLimit : Positive) (pair : Element) : Prop where
  named : pair.name ≠ []
  token : ∀ octet ∈ pair.name, isToken octet = true
  no_start : pair.name ∉ startLines
  no_feed : lf ∉ pair.value
  trimmed : trimBlanks pair.value = pair.value
  short : pair.line.length < inputLimit

/-- Reading a socket gives the pairs in their order, and leaves what follows the empty line. -/
def Reads (inputLimit : Positive) (socket : Buffered) (pairs : List Element) (rest : Octets) : Prop :=
  ∃ bound table next, (∀ times, bound ≤ times →
      Table.readSocket inputLimit times socket = .ok (table, next)) ∧
    next.unread = rest ∧ table.data = pairs ∧
    Represents table (pairs.map fun pair => (Table.headersReset.normalizeName pair.name, pair))

variable {inputLimit : Positive} {socket : Buffered} {line rest : Octets} {headers : Table}
  {field : HeaderField}

/-! ## Lines -/

/-- A line that is short enough is read. -/
theorem socketLine_eq (flowing : socket.Flows)
    (content : socket.unread = line ++ Net.crlf ++ rest) (no_feed : lf ∉ line)
    (short : line.length < inputLimit.1) :
    ∃ next : Buffered, Table.socketLine inputLimit socket = .ok (line, next) ∧ next.Flows ∧
      next.unread = rest := by
  obtain ⟨next, read_eq, taken, unread_eq⟩ | ⟨exn, next, -, long⟩ :=
    @Buffered.getLine_spec _ inputLimit _ _ flowing content no_feed
  · exact ⟨next, by rw [Table.socketLine, read_eq], taken.flows flowing, unread_eq⟩
  · omega

theorem not_continues_of_token {octet : UInt8} (token : isToken octet = true) (rest : Text) :
    Table.continues (octet :: rest) = false := by
  have no_blank : isBlank octet = false := by
    cases blank : isBlank octet with
    | false => rfl
    | true =>
        rw [isBlank, Bool.or_eq_true, decide_eq_true_eq, decide_eq_true_eq] at blank
        obtain rfl | rfl := blank <;> revert token <;> decide
  exact no_blank

namespace HeaderField.Readable

theorem not_continues (readable : field.Readable inputLimit) :
    Table.continues field.line = false := by
  obtain ⟨octet, name, name_eq⟩ := List.exists_cons_of_ne_nil readable.named
  have token := readable.token octet (name_eq ▸ List.mem_cons_self)
  rw [line, name_eq]
  exact not_continues_of_token token _

theorem line_ne_nil : field.line ≠ [] :=
  List.append_ne_nil_of_right_ne_nil _ (List.cons_ne_nil _ _)

/-- The joined lines of a field are parsed. -/
theorem parseHeaderLine (readable : field.Readable inputLimit) :
    headers.parseHeaderLine (field.line ++ field.folds.flatten) =
      trial (headers.added field.pair.name field.pair.value) := by
  have line_eq : field.line ++ field.folds.flatten =
      field.name ++ 58 :: (field.first ++ field.folds.flatten) := by
    rw [line, List.append_assoc, List.cons_append]
  have colon : isToken 58 = false := by decide
  rw [Table.parseHeaderLine, line_eq, List.dropWhile_append_of_pos readable.token,
    List.takeWhile_append_of_pos readable.token, List.dropWhile_cons_of_neg (by simp [colon]),
    List.takeWhile_cons_of_neg (by simp [colon]), List.append_nil]
  exact if_neg readable.named

end HeaderField.Readable

/-! ## The loop -/

/-- The text of some lines. -/
def lineText (lines : List Text) : Octets := lines.flatMap (· ++ Net.crlf)

/-- The lines of some fields. -/
def fieldLines (fields : List HeaderField) : List Text :=
  fields.flatMap fun field => field.line :: field.folds

/-- The entries of some pairs in a list of headers. -/
def headerEntries (pairs : List Element) : Entries :=
  pairs.map fun pair => (Table.headersReset.normalizeName pair.name, pair)

theorem lineText_cons (line : Text) (lines : List Text) :
    lineText (line :: lines) = line ++ Net.crlf ++ lineText lines :=
  rfl

theorem lineText_append (lines more : List Text) :
    lineText (lines ++ more) = lineText lines ++ lineText more :=
  List.flatMap_append

/-- A pair is added to a list of headers. -/
theorem added_pair {entries : Entries} (represents : Represents headers entries)
    (mode_eq : headers.toMode = Table.headersReset.toMode) (pair : Element) :
    ∃ after, headers.added pair.name pair.value = .ok after ∧
      Represents after (entries ++ headerEntries [pair]) ∧
      after.toMode = Table.headersReset.toMode := by
  obtain ⟨after, added_eq, added, same_mode⟩ := represents.add pair.name pair.value
  rw [mode_eq] at added same_mode
  exact ⟨after, by rw [Table.added, Table.add, added_eq], added, same_mode⟩

/-- Continuations are joined to the line. -/
theorem turns_folds {folds : List Text} (some_line : line ≠ []) (flowing : socket.Flows)
    (content : socket.unread = lineText folds ++ rest)
    (within : ∀ fold ∈ folds, lf ∉ fold ∧ fold.length < inputLimit.1)
    (folded : ∀ fold ∈ folds, Table.continues fold = true) :
    ∃ next : Buffered, (∀ times,
      turns (Table.readTurn (Table.socketLine inputLimit)) (times + folds.length)
          (line, headers, socket) =
        turns (Table.readTurn (Table.socketLine inputLimit)) times
          (line ++ folds.flatten, headers, next)) ∧
      next.Flows ∧ next.unread = rest := by
  induction folds generalizing line socket with
  | nil => exact ⟨socket, fun _ => by rw [List.flatten_nil, List.append_nil]; rfl, flowing, content⟩
  | cons fold folds ih =>
      obtain ⟨⟨no_feed, short⟩, later_within⟩ := List.forall_mem_cons.1 within
      obtain ⟨continued, later_folded⟩ := List.forall_mem_cons.1 folded
      rw [lineText_cons, List.append_assoc] at content
      obtain ⟨middle, read_eq, middle_flows, middle_unread⟩ :=
        socketLine_eq flowing content no_feed short
      obtain ⟨next, ran, next_flows, next_unread⟩ := @ih middle (line ++ fold)
        (List.append_ne_nil_of_left_ne_nil some_line _) middle_flows middle_unread later_within
        later_folded
      refine ⟨next, fun times => ?_, next_flows, next_unread⟩
      have turn : Table.readTurn (Table.socketLine inputLimit) (line, headers, socket) =
          .ok (.again (line ++ fold, headers, middle)) := by
        rw [Table.readTurn, if_neg some_line, read_eq, Http2.ok_bind]
        exact if_pos continued
      rw [List.length_cons, ← Nat.add_assoc, turns_again turn, ran times, List.flatten_cons,
        List.append_assoc]

/-- A field is added once a line has been read that does not continue it. -/
theorem turns_field {entries : Entries} (readable : field.Readable inputLimit)
    (flowing : socket.Flows) (content : socket.unread = lineText field.folds ++ rest)
    (represents : Represents headers entries)
    (mode_eq : headers.toMode = Table.headersReset.toMode) :
    ∃ (table : Table) (folded : Buffered),
      (∀ times after next, Table.socketLine inputLimit folded = .ok (after, next) →
        Table.continues after = false →
        turns (Table.readTurn (Table.socketLine inputLimit)) (times + 1 + field.folds.length)
            (field.line, headers, socket) =
          turns (Table.readTurn (Table.socketLine inputLimit)) times (after, table, next)) ∧
      folded.Flows ∧ folded.unread = rest ∧
      Represents table (entries ++ headerEntries [field.pair]) ∧
      table.toMode = Table.headersReset.toMode := by
  obtain ⟨folded, ran, folded_flows, folded_unread⟩ := @turns_folds inputLimit socket field.line rest
    headers field.folds HeaderField.Readable.line_ne_nil flowing content readable.folds_within
    readable.folded
  obtain ⟨table, added_eq, added, added_mode⟩ := added_pair represents mode_eq field.pair
  refine ⟨table, folded, fun times after next read_eq ended => ?_, folded_flows, folded_unread,
    added, added_mode⟩
  have some_line : field.line ++ field.folds.flatten ≠ [] :=
    List.append_ne_nil_of_left_ne_nil HeaderField.Readable.line_ne_nil _
  have turn : Table.readTurn (Table.socketLine inputLimit)
      (field.line ++ field.folds.flatten, headers, folded) = .ok (.again (after, table, next)) := by
    rw [Table.readTurn, if_neg some_line, read_eq, Http2.ok_bind]
    dsimp only
    rw [ended, if_neg (by decide), readable.parseHeaderLine, added_eq]
    rfl
  rw [ran, turns_again turn]

/-- From the line of a field on, the fields are added up to the empty line. -/
theorem turns_fields {fields : List HeaderField} {entries : Entries}
    (readable : ∀ other ∈ field :: fields, other.Readable inputLimit) (flowing : socket.Flows)
    (content : socket.unread = lineText (field.folds ++ fieldLines fields ++ [[]]) ++ rest)
    (represents : Represents headers entries)
    (mode_eq : headers.toMode = Table.headersReset.toMode) :
    ∃ bound table next, (∀ times, bound ≤ times →
        turns (Table.readTurn (Table.socketLine inputLimit)) times (field.line, headers, socket) =
          .ok (table, next)) ∧
      next.unread = rest ∧
      Represents table (entries ++ headerEntries ((field :: fields).map HeaderField.pair)) := by
  induction fields generalizing field headers socket entries with
  | nil =>
      obtain ⟨first, -⟩ := List.forall_mem_cons.1 readable
      rw [List.append_assoc, lineText_append, List.append_assoc] at content
      obtain ⟨table, folded, ran, folded_flows, folded_unread, added, -⟩ :=
        turns_field first flowing content represents mode_eq
      obtain ⟨next, read_eq, -, next_unread⟩ := @socketLine_eq inputLimit folded [] rest folded_flows
        folded_unread List.not_mem_nil inputLimit.2.1
      refine ⟨2 + field.folds.length, table, next, fun times enough => ?_, next_unread, added⟩
      obtain ⟨others, rfl⟩ : ∃ others, times = others + 1 + 1 + field.folds.length :=
        ⟨times - 2 - field.folds.length, by omega⟩
      rw [ran _ _ _ read_eq rfl]
      exact turns_leave rfl
  | cons second later ih =>
      obtain ⟨first, later_readable⟩ := List.forall_mem_cons.1 readable
      obtain ⟨second_readable, -⟩ := List.forall_mem_cons.1 later_readable
      rw [List.append_assoc, lineText_append, List.append_assoc] at content
      obtain ⟨table, folded, ran, folded_flows, folded_unread, added, added_mode⟩ :=
        turns_field first flowing content represents mode_eq
      have lines_eq : fieldLines (second :: later) ++ [[]] =
          second.line :: (second.folds ++ fieldLines later ++ [[]]) := by
        rw [fieldLines, List.flatMap_cons, List.cons_append, List.cons_append]
        rfl
      rw [lines_eq, lineText_cons, List.append_assoc] at folded_unread
      obtain ⟨next, read_eq, next_flows, next_unread⟩ := socketLine_eq folded_flows folded_unread
        second_readable.line_within.1 second_readable.line_within.2
      obtain ⟨bound, last, final, last_ran, final_unread, all_added⟩ :=
        ih later_readable next_flows next_unread added added_mode
      refine ⟨bound + 1 + field.folds.length, last, final, fun times enough => ?_, final_unread, ?_⟩
      · obtain ⟨others, rfl⟩ : ∃ others, times = others + 1 + field.folds.length :=
          ⟨times - 1 - field.folds.length, by omega⟩
        rw [ran _ _ _ read_eq second_readable.not_continues]
        exact last_ran others (by omega)
      · rw [List.append_assoc] at all_added
        exact all_added

/-- The fields on a socket are read, with their continuations. -/
theorem reads_fields {fields : List HeaderField}
    (readable : ∀ other ∈ fields, other.Readable inputLimit) (flowing : socket.Flows)
    (content : socket.unread = lineText (fieldLines fields ++ [[]]) ++ rest) :
    Reads inputLimit socket (fields.map HeaderField.pair) rest := by
  have empty : Represents Table.headersReset [] :=
    ⟨rfl, fun key => Std.TreeMap.getElem?_emptyc⟩
  cases fields with
  | nil =>
      obtain ⟨next, read_eq, -, next_unread⟩ := @socketLine_eq inputLimit socket [] rest flowing
        content List.not_mem_nil inputLimit.2.1
      refine ⟨1, Table.headersReset, next, fun times enough => ?_, next_unread, rfl, empty⟩
      obtain ⟨others, rfl⟩ : ∃ others, times = others + 1 := ⟨times - 1, by omega⟩
      rw [Table.readSocket, Table.readHeaders, read_eq, Http2.ok_bind]
      exact turns_leave rfl
  | cons field fields =>
      obtain ⟨first, -⟩ := List.forall_mem_cons.1 readable
      have lines_eq : fieldLines (field :: fields) ++ [[]] =
          field.line :: (field.folds ++ fieldLines fields ++ [[]]) := by
        rw [fieldLines, List.flatMap_cons, List.cons_append, List.cons_append]
        rfl
      rw [lines_eq, lineText_cons, List.append_assoc] at content
      obtain ⟨next, read_eq, next_flows, next_unread⟩ := socketLine_eq flowing content
        first.line_within.1 first.line_within.2
      obtain ⟨bound, table, last, ran, last_unread, added⟩ :=
        turns_fields readable next_flows next_unread empty rfl
      rw [List.nil_append] at added
      refine ⟨bound, table, last, fun times enough => ?_, last_unread, ?_, added⟩
      · rw [Table.readSocket, Table.readHeaders, read_eq]
        exact ran times enough
      · rw [added.data_eq, headerEntries, List.map_map]
        exact List.map_id _

/-! ## Written headers -/

namespace Element.Writable

variable {pair : Element}

theorem line_eq (writable : pair.Writable inputLimit) : pair.line = pair.toField.line := by
  rw [Element.line, if_neg writable.named, if_neg writable.no_start, List.append_assoc]
  rfl

theorem pair_eq (writable : pair.Writable inputLimit) : pair.toField.pair = pair := by
  have value_eq : trimBlanks (32 :: pair.value ++ []) = pair.value := by
    rw [List.append_nil]
    exact writable.trimmed
  exact congrArg (Element.mk pair.name) value_eq

theorem readable (writable : pair.Writable inputLimit) : pair.toField.Readable inputLimit where
  named := writable.named
  token := writable.token
  line_within := by
    refine ⟨?_, writable.line_eq ▸ writable.short⟩
    rw [HeaderField.line, List.mem_append, List.mem_cons, not_or, not_or]
    refine ⟨fun feed => ?_, by decide, ?_⟩
    · exact absurd (writable.token _ feed) (by decide)
    · exact List.not_mem_cons_of_ne_of_not_mem (by decide) writable.no_feed
  folds_within := List.forall_mem_nil _
  folded := List.forall_mem_nil _

end Element.Writable

/-- The text of a list of headers is that of its fields. -/
theorem getContent_eq (writable : ∀ pair ∈ headers.data, pair.Writable inputLimit) :
    headers.getContent true = lineText (fieldLines (headers.data.map Element.toField) ++ [[]]) := by
  rw [Table.getContent, if_pos rfl, lineText_append]
  congr 1
  generalize headers.data = pairs at writable
  induction pairs with
  | nil => rfl
  | cons pair later ih =>
      obtain ⟨first, others⟩ := List.forall_mem_cons.1 writable
      rw [List.flatMap_cons, ih others, first.line_eq]
      rfl

/-- The text of a list of headers is read back as the same pairs in the same order.  Fields with
continuations are read as one pair each, with the joined value. -/
theorem readSocket_getContent {fields : List HeaderField} {folded : Buffered}
    (writable : ∀ pair ∈ headers.data, pair.Writable inputLimit)
    (readable : ∀ other ∈ fields, other.Readable inputLimit)
    (flowing : socket.Flows) (content : socket.unread = headers.getContent true ++ rest)
    (folded_flowing : folded.Flows)
    (folded_content : folded.unread = lineText (fieldLines fields ++ [[]]) ++ rest) :
    Reads inputLimit socket headers.data rest ∧
      Reads inputLimit folded (fields.map HeaderField.pair) rest := by
  refine ⟨?_, reads_fields readable folded_flowing folded_content⟩
  have plain : ∀ field ∈ headers.data.map Element.toField, field.Readable inputLimit := by
    intro field among
    obtain ⟨pair, pair_among, rfl⟩ := List.mem_map.1 among
    exact (writable pair pair_among).readable
  have same : (headers.data.map Element.toField).map HeaderField.pair = headers.data := by
    rw [List.map_map]
    exact (List.map_congr_left fun pair among => (writable pair among).pair_eq).trans (List.map_id _)
  rw [getContent_eq writable] at content
  exact same ▸ reads_fields plain flowing content

/-- A socket on which some octets arrive one by one. -/
def arriving (octets : Octets) : Buffered where
  arrivals := Buffered.singles octets

theorem arriving_flows (octets : Octets) : (arriving octets).Flows :=
  fun _ => Buffered.singles_some

theorem arriving_unread (octets : Octets) : (arriving octets).unread = octets := by
  rw [Buffered.unread, Buffered.incoming, arriving, Buffered.flatMap_singles]
  rfl

theorem arriving_pieces (octets : Octets) : (arriving octets).PiecesWithin 1 := by
  refine ⟨Nat.zero_le 1, fun arrival among => ?_⟩
  obtain ⟨octet, -, rfl⟩ := List.mem_map.1 among
  exact le_rfl

theorem limit_within : 1 ≤ 8 ∧ 8 ≤ Http2.naturalLast := by decide

/-- Two values of one name, and a field with a continuation. -/
theorem readSocket_two_values :
    Reads ⟨8, limit_within⟩
        (arriving (Table.getContent { data := [⟨[65], [49]⟩, ⟨[65], []⟩] } true ++ []))
        [⟨[65], [49]⟩, ⟨[65], []⟩] [] ∧
      Reads ⟨8, limit_within⟩
        (arriving (lineText (fieldLines [⟨[66], [32, 120], [[9, 121]]⟩] ++ [[]]) ++ []))
        [⟨[66], [120, 9, 121]⟩] [] := by
  refine readSocket_getContent ?_ ?_ (arriving_flows _) (arriving_unread _) (arriving_flows _)
    (arriving_unread _)
  · intro pair among
    obtain rfl | rfl := List.mem_pair.1 among
    · exact ⟨by decide, by decide +kernel, by decide +kernel, by decide, by decide, by decide +kernel⟩
    · exact ⟨by decide, by decide +kernel, by decide +kernel, by decide, by decide, by decide +kernel⟩
  · intro field among
    obtain rfl := List.mem_singleton.1 among
    exact ⟨by decide, by decide +kernel, by decide, by decide, by decide⟩

/-- A pair that is named like a method is written as a request line, which is not read as a header; and a
line that is as long as the limit is refused. -/
theorem readSocket_refused :
    (∀ rest, ¬Reads ⟨8, limit_within⟩ (arriving (Table.getContent { data := [⟨text "GET", [47]⟩] } true))
        [⟨text "GET", [47]⟩] rest) ∧
      ∀ rest, ¬Reads ⟨8, limit_within⟩
        (arriving (Table.getContent { data := [⟨[65], text "12345"⟩] } true))
        [⟨[65], text "12345"⟩] rest := by
  constructor
  · rintro rest ⟨bound, table, next, ran, -⟩
    have content : (arriving (Table.getContent { data := [⟨text "GET", [47]⟩] } true)).unread =
        text "GET /" ++ Net.crlf ++ ([] ++ Net.crlf ++ []) := by
      rw [arriving_unread]
      decide +kernel
    obtain ⟨first, first_eq, first_flows, first_unread⟩ := @socketLine_eq ⟨8, limit_within⟩ _ _ _
      (arriving_flows _) content (by decide +kernel) (by decide +kernel)
    obtain ⟨second, second_eq, -, -⟩ := @socketLine_eq ⟨8, limit_within⟩ _ _ _ first_flows
      first_unread List.not_mem_nil (by decide)
    have turn : Table.readTurn (Table.socketLine ⟨8, limit_within⟩)
        (text "GET /", Table.headersReset, first) =
          .error (.raised (.formatError (text "GET /"))) := by
      rw [Table.readTurn, if_neg (by decide +kernel), second_eq, Http2.ok_bind]
      rfl
    have raised := ran (bound + 1) (Nat.le_succ bound)
    rw [Table.readSocket, Table.readHeaders, first_eq, Http2.ok_bind] at raised
    cases raised.symm.trans (turns_stop turn)
  · rintro rest ⟨bound, table, next, ran, -⟩
    have content : (arriving (Table.getContent { data := [⟨[65], text "12345"⟩] } true)).unread =
        text "A: 12345" ++ Net.crlf ++ Net.crlf := by
      rw [arriving_unread]
      decide +kernel
    obtain ⟨exn, after, refused⟩ := @Buffered.getLine_refused _ ⟨8, limit_within⟩ _ _
      (arriving_flows _) (arriving_pieces _) content (by decide +kernel) (by decide +kernel)
    have raised := ran bound le_rfl
    rw [Table.readSocket, Table.readHeaders, Table.socketLine, refused] at raised
    cases raised

end Containers
end AdaWebServer

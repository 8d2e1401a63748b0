import AdaWebServer.Client.ChunkSize

/-!
# Chunked responses

A body is sent in chunks, with lines that give their sizes, and is read by any calls of `Read_Some` and
`Read`.  The calls return the body, report its end after it and leave what follows the message, exactly
when the message has neither chunk extensions nor trailer fields and its sizes and size lines are within
their limits.
-/

namespace AdaWebServer
namespace Client

open Http2 (Octet Octets Text Exn Positive naturalLast)
open Net (Buffered lf crlf)

/-- A chunk of a body. -/
structure Chunk where
  size : SizeLine
  data : Octets
  data_ne : data ≠ []
  value_eq : size.value = data.length

/-- The octets of a chunk. -/
def Chunk.octets (chunk : Chunk) : Octets := chunk.size.octets ++ chunk.data ++ crlf

/-- A body that is sent in chunks, with the last size line and the trailer fields. -/
structure Framing where
  chunks : List Chunk
  last : SizeLine
  trailers : List Text
  last_zero : last.value = 0
  trailers_ne : ∀ field ∈ trailers, field ≠ []
  trailers_line : ∀ field ∈ trailers, lf ∉ field

namespace Framing

theorem nil_ne : ∀ field ∈ ([] : List Text), field ≠ [] := nofun

theorem nil_line : ∀ field ∈ ([] : List Text), lf ∉ field := nofun

/-- What follows the chunks. -/
def ending (framing : Framing) : Octets :=
  framing.last.octets ++ framing.trailers.flatMap (· ++ crlf) ++ crlf

/-- The octets of the message body. -/
def octets (framing : Framing) : Octets :=
  framing.chunks.flatMap Chunk.octets ++ framing.ending

/-- The body that is sent. -/
def payload (framing : Framing) : Octets := framing.chunks.flatMap Chunk.data

/-- Only what the client reads is used. -/
structure Plain (inputLimit : Positive) (framing : Framing) : Prop where
  chunks : ∀ chunk ∈ framing.chunks, chunk.size.Plain inputLimit
  last : framing.last.Plain inputLimit
  trailers : framing.trailers = []

end Framing

/-- A call with a buffer of the given size. -/
inductive Call where
  | readSome (size : Nat)
  | read (size : Nat)

namespace Call

/-- The size of the buffer. -/
def size : Call → Nat
  | readSome size => size
  | read size => size

/-- The call is made. -/
def perform (inputLimit : Positive) : Call → Reading Octets
  | readSome size => HttpConnection.readSome inputLimit size
  | read size => HttpConnection.read inputLimit size

/-- The caller sees from what was returned that the body is over. -/
def ReportsEnd (data : Octets) : Call → Prop
  | readSome _ => data = []
  | read size => data.length < size

/-- Calls are made one after the other. -/
def performAll (inputLimit : Positive) :
    List Call → HttpConnection → EStateM.Result Exn HttpConnection (List Octets)
  | [], connection => .ok [] connection
  | call :: later, connection =>
      match call.perform inputLimit connection with
      | .ok data next =>
          match performAll inputLimit later next with
          | .ok pieces last => .ok (data :: pieces) last
          | .error exn last => .error exn last
      | .error exn next => .error exn next

end Call

/-- What is left of a body, and whether its end has been reported. -/
structure Progress where
  rest : Octets
  ended : Prop

/-- A call returns the next octets of a body, and reports the end once none are left. -/
structure Served (before : Progress) (call : Call) (data : Octets) (after : Progress) : Prop where
  rest_eq : before.rest = data ++ after.rest
  fits : data.length ≤ call.size
  stays : before.ended → after.ended
  complete : after.ended → after.rest = []
  reported : 0 < call.size → (call.ReportsEnd data ↔ after.ended)

/-- Calls return a body from its first octet on. -/
inductive ServedAll : Progress → List Call → List Octets → Progress → Prop where
  | done {progress : Progress} : ServedAll progress [] [] progress
  | call {before middle after : Progress} {call : Call} {later : List Call} {data : Octets}
      {pieces : List Octets} (served : Served before call data middle)
      (further : ServedAll middle later pieces after) :
      ServedAll before (call :: later) (data :: pieces) after

/-- However the message arrives and whatever calls are made, they return its payload and report the
end after it, and then exactly the message has been taken from the socket. -/
def Decodes (inputLimit : Positive) (framing : Framing) : Prop :=
  ∀ (socket : Buffered) (following : Octets), socket.Flows →
    socket.unread = framing.octets ++ following →
    ∀ calls, ∃ pieces last after,
      Call.performAll inputLimit calls (chooseTransfer true (Http2.text "chunked") none socket) =
        .ok pieces last ∧
      ServedAll ⟨framing.payload, False⟩ calls pieces after ∧
      (after.ended ↔ last.transfer = .endResponse) ∧
      (after.ended → last.socket.unread = following)

/-! ## Reading one chunk -/

/-- The connection is in front of what is left of a chunk, which is nothing between chunks. -/
structure Partway (connection : HttpConnection) (left rest : Octets) : Prop where
  transfer_eq : connection.transfer = .chunked
  length_eq : connection.length = left.length
  flows : connection.socket.Flows
  unread_eq : connection.socket.unread = if left = [] then rest else left ++ crlf ++ rest

namespace HttpConnection

variable {inputLimit : Positive} {connection : HttpConnection} {left rest : Octets}

/-- An empty line is skipped. -/
theorem skipLine_ok (data : Octets) (flowing : connection.socket.Flows)
    (content : connection.socket.unread = crlf ++ rest) :
    ∃ socket, connection.skipLine inputLimit data = .ok data { connection with socket } ∧
      Buffered.Took crlf connection.socket socket ∧ socket.unread = rest := by
  have empty_line : connection.socket.unread = [] ++ crlf ++ rest := content
  rw [skipLine, onSocket]
  obtain ⟨socket, line_eq, taken, socket_unread⟩ | ⟨_, _, _, too_long⟩ :=
    @Buffered.getLine_spec _ inputLimit _ _ flowing empty_line List.not_mem_nil
  · rw [line_eq]
    exact ⟨socket, rfl, taken, socket_unread⟩
  · exact absurd (inputLimit.2.1.trans too_long) (by decide)

/-- A part of what is left of a chunk is read. -/
theorem readChunk_ok (size : Nat) (partway : Partway connection left rest) (left_ne : left ≠ []) :
    ∃ data next left', connection.readChunk inputLimit size = .ok data next ∧
      left = data ++ left' ∧ data.length ≤ size ∧ (0 < size → data ≠ []) ∧
      Partway next left' rest ∧
      ∀ bound, connection.socket.PiecesWithin bound → next.socket.PiecesWithin bound := by
  obtain ⟨transfer_eq, length_eq, flowing, unread_eq⟩ := partway
  rw [if_neg left_ne] at unread_eq
  have left_pos := List.length_pos_iff.2 left_ne
  rw [readChunk, readLimited, onSocket]
  obtain ⟨data, socket, read_eq, taken, data_le, data_ne⟩ | ⟨_, _, failed, empty⟩ :=
    connection.socket.read_spec (min size connection.length)
  · rw [read_eq]
    have data_le_left : data.length ≤ left.length := by omega
    have content_eq : left ++ (crlf ++ rest) = data ++ socket.unread := by
      rw [← taken.unread_eq, unread_eq, List.append_assoc]
    obtain ⟨left', rfl⟩ : data <+: left :=
      List.prefix_of_prefix_length_le ⟨_, content_eq.symm⟩ (List.prefix_append _ _) data_le_left
    have socket_unread : socket.unread = left' ++ (crlf ++ rest) := by
      rw [List.append_assoc] at content_eq
      exact (List.append_cancel_left content_eq).symm
    have length_left : connection.length - data.length = left'.length := by
      rw [length_eq, List.length_append, Nat.add_sub_cancel_left]
    have data_pos : 0 < size → data ≠ [] := fun positive => data_ne (by omega)
    dsimp only
    rw [length_left]
    cases left' with
    | nil =>
        obtain ⟨last, skipped, last_taken, last_unread⟩ :=
          @skipLine_ok inputLimit { connection with socket, length := 0 } rest data
            (taken.flows flowing) socket_unread
        refine ⟨data, { connection with socket := last, length := 0 }, [], ?_, rfl, by omega, data_pos,
          ⟨transfer_eq, rfl, last_taken.flows (taken.flows flowing), last_unread⟩, ?_⟩
        · rw [List.length_nil, if_pos rfl]
          exact skipped
        · exact fun bound within => last_taken.pieces bound (taken.pieces bound within)
    | cons octet left' =>
        refine ⟨data, _, octet :: left', rfl, rfl, by omega, data_pos,
          ⟨transfer_eq, rfl, taken.flows flowing, ?_⟩, taken.pieces⟩
        rw [if_neg (List.cons_ne_nil _ _), List.append_assoc]
        exact socket_unread
  · have incoming_nil := failed.stuck flowing
    rw [Buffered.unread, incoming_nil, (Net.ReadCache.isEmpty_iff _).1 empty] at unread_eq
    have lengths := congrArg List.length unread_eq
    simp at lengths
    omega

/-- The size of the next chunk is read from a plain line. -/
theorem nextChunk_ok {size : SizeLine} (partway : Partway connection [] (size.octets ++ rest))
    (plain : size.Plain inputLimit) :
    ∃ socket, connection.nextChunk inputLimit =
        .ok () { connection with socket, length := size.value } ∧
      Buffered.Took size.octets connection.socket socket ∧ socket.unread = rest := by
  have value_eq : hexValue (trim size.text) = .ok size.value :=
    SizeLine.hexValue_text_iff.2 ⟨plain.extension_nil, rfl, plain.value_le⟩
  rw [nextChunk, onSocket]
  obtain ⟨socket, line_eq, taken, socket_unread⟩ | ⟨_, _, _, too_long⟩ :=
    @Buffered.getLine_spec _ inputLimit _ _ partway.flows partway.unread_eq size.lf_not_mem_text
  · rw [line_eq]
    dsimp only
    rw [value_eq]
    exact ⟨socket, rfl, taken, socket_unread⟩
  · rw [SizeLine.text, plain.extension_nil, List.append_nil] at too_long
    exact absurd plain.digits_fit (not_lt.2 too_long)

/-- A line that is not plain is refused, when it arrives octet by octet. -/
theorem nextChunk_refused {size : SizeLine} (partway : Partway connection [] (size.octets ++ rest))
    (pieces : connection.socket.PiecesWithin 1) (not_plain : ¬size.Plain inputLimit) :
    ∃ exn next, connection.nextChunk inputLimit = .error exn next := by
  rw [nextChunk, onSocket]
  by_cases too_long : inputLimit.1 ≤ size.text.length
  · obtain ⟨exn, socket, failed_eq⟩ := Buffered.getLine_refused partway.flows pieces
      partway.unread_eq size.lf_not_mem_text too_long
    rw [failed_eq]
    exact ⟨exn, _, rfl⟩
  · obtain ⟨socket, line_eq, _, _⟩ | ⟨exn, socket, failed_eq, _⟩ :=
      @Buffered.getLine_spec _ inputLimit _ _ partway.flows partway.unread_eq size.lf_not_mem_text
    · rw [line_eq]
      dsimp only
      cases value_eq : hexValue (trim size.text) with
      | error exn => exact ⟨exn, _, rfl⟩
      | ok value =>
          obtain ⟨extension_nil, rfl, value_le⟩ := SizeLine.hexValue_text_iff.1 value_eq
          rw [SizeLine.text, extension_nil, List.append_nil, not_le] at too_long
          exact absurd ⟨extension_nil, too_long, value_le⟩ not_plain
    · rw [failed_eq]
      exact ⟨exn, _, rfl⟩

theorem readSome_between (size : Nat) (partway : Partway connection [] rest) :
    connection.readSome inputLimit size =
      match connection.nextChunk inputLimit with
      | .ok () opened =>
          if opened.length = 0 then
            match opened.skipLine inputLimit [] with
            | .ok _ next => next.finish
            | .error exn next => .error exn next
          else opened.readChunk inputLimit size
      | .error exn next => .error exn next := by
  have length_eq : connection.length = 0 := partway.length_eq
  rw [readSome, readInternal, partway.transfer_eq]
  dsimp only
  exact if_pos length_eq

/-- Within a chunk a part of it is read. -/
theorem readSome_within (size : Nat) (partway : Partway connection left rest) (left_ne : left ≠ []) :
    connection.readSome inputLimit size = connection.readChunk inputLimit size := by
  have length_ne : ¬connection.length = 0 := by
    rw [partway.length_eq, List.length_eq_zero_iff]
    exact left_ne
  rw [readSome, readInternal, partway.transfer_eq]
  dsimp only
  rw [if_neg length_ne]

/-- In front of a plain chunk a part of it is read. -/
theorem readSome_chunk (size : Nat) {chunk : Chunk}
    (partway : Partway connection [] (chunk.octets ++ rest)) (plain : chunk.size.Plain inputLimit) :
    ∃ opened, connection.readSome inputLimit size = opened.readChunk inputLimit size ∧
      Partway opened chunk.data rest ∧
      ∀ bound, connection.socket.PiecesWithin bound → opened.socket.PiecesWithin bound := by
  have partway_line :
      Partway connection [] (chunk.size.octets ++ (chunk.data ++ crlf ++ rest)) := by
    simpa [Chunk.octets, List.append_assoc] using partway
  obtain ⟨socket, opened_eq, taken, socket_unread⟩ := nextChunk_ok partway_line plain
  have data_pos := List.length_pos_iff.2 chunk.data_ne
  refine ⟨{ connection with socket, length := chunk.size.value }, ?_,
    ⟨partway.transfer_eq, chunk.value_eq, taken.flows partway.flows, ?_⟩, taken.pieces⟩
  · rw [readSome_between size partway, opened_eq]
    dsimp only
    rw [if_neg (by rw [chunk.value_eq]; omega)]
  · rw [if_neg chunk.data_ne]
    exact socket_unread

end HttpConnection

/-! ## Reading the message -/

/-- Where a connection is in a message: a part of the body is left, or the body is over. -/
inductive At (inputLimit : Positive) (following : Octets) : HttpConnection → Progress → Prop where
  | reading {connection : HttpConnection} {framing : Framing} {left : Octets}
      (plain : framing.Plain inputLimit)
      (partway : Partway connection left (framing.octets ++ following)) :
      At inputLimit following connection ⟨left ++ framing.payload, False⟩
  | beyond {connection : HttpConnection} (transfer_eq : connection.transfer = .endResponse)
      (unread_eq : connection.socket.unread = following) :
      At inputLimit following connection ⟨[], True⟩

namespace HttpConnection

variable {inputLimit : Positive} {connection : HttpConnection} {following : Octets}

/-- At the last size line the body is over. -/
theorem readSome_last (size : Nat) {framing : Framing} (plain : framing.Plain inputLimit)
    (partway : Partway connection [] (framing.ending ++ following)) :
    ∃ next, connection.readSome inputLimit size = .ok [] next ∧
      next.transfer = .endResponse ∧ next.socket.unread = following := by
  have partway_line : Partway connection [] (framing.last.octets ++ (crlf ++ following)) := by
    simpa [Framing.ending, plain.trailers, List.append_assoc] using partway
  obtain ⟨socket, opened_eq, taken, socket_unread⟩ := nextChunk_ok partway_line plain.last
  obtain ⟨last, skipped, _, last_unread⟩ :=
    @skipLine_ok inputLimit { connection with socket, length := framing.last.value } following []
      (taken.flows partway.flows) socket_unread
  refine ⟨{ connection with socket := last, length := framing.last.value, transfer := .endResponse },
    ?_, rfl, last_unread⟩
  rw [readSome_between size partway, opened_eq]
  dsimp only
  rw [if_pos framing.last_zero, skipped]
  rfl

/-- A call of `Read_Some` serves the next part of the message. -/
theorem readSome_served (size : Nat) {before : Progress} (position : At inputLimit following connection before) :
    ∃ data next after, connection.readSome inputLimit size = .ok data next ∧
      Served before (.readSome size) data after ∧ At inputLimit following next after := by
  cases position with
  | beyond transfer_eq unread_eq =>
      refine ⟨[], connection, ⟨[], True⟩, ?_, ⟨rfl, Nat.zero_le _, id, fun _ => rfl, ?_⟩,
        .beyond transfer_eq unread_eq⟩
      · rw [readSome, readInternal, transfer_eq]
      · exact fun _ => iff_of_true rfl trivial
  | @reading framing left plain partway =>
      have part_served : ∀ {opened : HttpConnection} {chunk : Octets} {later : Framing},
          connection.readSome inputLimit size = opened.readChunk inputLimit size →
          Partway opened chunk (later.octets ++ following) → chunk ≠ [] →
          later.Plain inputLimit → left ++ framing.payload = chunk ++ later.payload →
          ∃ data next after, connection.readSome inputLimit size = .ok data next ∧
            Served ⟨left ++ framing.payload, False⟩ (.readSome size) data after ∧
            At inputLimit following next after := by
        intro opened chunk later read_eq opened_partway chunk_ne later_plain payload_eq
        obtain ⟨data, next, left', part_eq, chunk_eq, data_le, data_ne, next_partway, _⟩ :=
          readChunk_ok size opened_partway chunk_ne
        refine ⟨data, next, ⟨left' ++ later.payload, False⟩, read_eq.trans part_eq,
          ⟨?_, data_le, id, False.elim, fun positive => ?_⟩, .reading later_plain next_partway⟩
        · rw [payload_eq, chunk_eq, List.append_assoc]
        · exact iff_of_false (data_ne positive) id
      by_cases left_nil : left = []
      · subst left_nil
        obtain ⟨chunks, last, trailers, last_zero, trailers_ne, trailers_line⟩ := framing
        cases chunks with
        | nil =>
            obtain ⟨next, read_eq, transfer_eq, unread_eq⟩ := readSome_last size plain partway
            exact ⟨[], next, ⟨[], True⟩, read_eq, ⟨rfl, Nat.zero_le _, fun _ => trivial, fun _ => rfl,
              fun _ => iff_of_true rfl trivial⟩, .beyond transfer_eq unread_eq⟩
        | cons chunk chunks =>
            have chunks_plain := List.forall_mem_cons.1 plain.chunks
            have partway_chunk : Partway connection [] (chunk.octets ++
                (Framing.octets ⟨chunks, last, trailers, last_zero, trailers_ne, trailers_line⟩ ++
                  following)) := by
              simpa [Framing.octets, Framing.ending, List.append_assoc] using partway
            obtain ⟨opened, read_eq, opened_partway, _⟩ :=
              readSome_chunk size partway_chunk chunks_plain.1
            exact part_served read_eq opened_partway chunk.data_ne
              ⟨chunks_plain.2, plain.last, plain.trailers⟩ List.flatMap_cons
      · exact part_served (readSome_within size partway left_nil) partway left_nil plain rfl

/-- The loop of `Read` serves the next part of the message. -/
theorem readLoop_served (taken : Octets) {times space : Nat} {before : Progress}
    (enough : space < times) (position : At inputLimit following connection before) :
    ∃ data next after, readLoop inputLimit times space taken connection = .ok (taken ++ data) next ∧
      Served before (.read space) data after ∧ At inputLimit following next after := by
  induction times generalizing connection space taken before with
  | zero => exact absurd enough (Nat.not_lt_zero _)
  | succ times ih =>
      obtain ⟨more, next, middle, read_eq, served, next_position⟩ := readSome_served space position
      have reported : 0 < space → (more = [] ↔ middle.ended) := served.reported
      have more_le : more.length ≤ space := served.fits
      rw [readLoop, read_eq]
      dsimp only
      by_cases done : more.length = space ∨ more = []
      · rw [if_pos done]
        refine ⟨more, next, middle, rfl,
          ⟨served.rest_eq, more_le, served.stays, served.complete, fun positive => ?_⟩,
          next_position⟩
        change 0 < space at positive
        rw [← reported positive]
        show more.length < space ↔ more = []
        rw [← List.length_eq_zero_iff] at done ⊢
        omega
      · rw [if_neg done]
        rw [not_or] at done
        have more_pos := List.length_pos_iff.2 done.2
        obtain ⟨data, last, after, loop_eq, data_served, last_position⟩ :=
          ih (taken ++ more) (by omega : space - more.length < times) next_position
        have data_le : data.length ≤ space - more.length := data_served.fits
        refine ⟨more ++ data, last, after, ?_, ⟨?_, ?_, ?_, data_served.complete, fun _ => ?_⟩,
          last_position⟩
        · rw [loop_eq, List.append_assoc]
        · rw [served.rest_eq, data_served.rest_eq, List.append_assoc]
        · show (more ++ data).length ≤ space
          rw [List.length_append]
          omega
        · exact fun ended => data_served.stays (served.stays ended)
        · have space_left : 0 < space - more.length := by omega
          rw [← data_served.reported space_left]
          show (more ++ data).length < space ↔ data.length < space - more.length
          rw [List.length_append]
          omega

end HttpConnection

namespace Call

variable {inputLimit : Positive} {connection : HttpConnection} {following : Octets}

/-- A call serves the next part of the message. -/
theorem perform_served (call : Call) {before : Progress}
    (position : At inputLimit following connection before) :
    ∃ data next after, call.perform inputLimit connection = .ok data next ∧
      Served before call data after ∧ At inputLimit following next after := by
  cases call with
  | readSome size => exact HttpConnection.readSome_served size position
  | read size => exact HttpConnection.readLoop_served [] (Nat.lt_succ_self size) position

/-- Calls serve the message part by part. -/
theorem performAll_served (calls : List Call) {before : Progress}
    (position : At inputLimit following connection before) :
    ∃ pieces last after, performAll inputLimit calls connection = .ok pieces last ∧
      ServedAll before calls pieces after ∧ At inputLimit following last after := by
  induction calls generalizing connection before with
  | nil => exact ⟨[], connection, before, rfl, .done, position⟩
  | cons call later ih =>
      obtain ⟨data, next, middle, call_eq, served, next_position⟩ := call.perform_served position
      obtain ⟨pieces, last, after, later_eq, further, last_position⟩ := ih next_position
      refine ⟨data :: pieces, last, after, ?_, .call served further, last_position⟩
      rw [performAll, call_eq]
      dsimp only
      rw [later_eq]

/-- Calls can be made in two parts. -/
theorem performAll_append (earlier later : List Call) {pieces : List Octets} {next : HttpConnection}
    (earlier_eq : performAll inputLimit earlier connection = .ok pieces next) :
    performAll inputLimit (earlier ++ later) connection =
      match performAll inputLimit later next with
      | .ok further last => .ok (pieces ++ further) last
      | .error exn last => .error exn last := by
  induction earlier generalizing connection pieces with
  | nil =>
      cases earlier_eq
      rw [List.nil_append]
      cases performAll inputLimit later next <;> rfl
  | cons call earlier ih =>
      rw [performAll] at earlier_eq
      rw [List.cons_append, performAll]
      cases call_eq : call.perform inputLimit connection with
      | error exn last =>
          rw [call_eq] at earlier_eq
          cases earlier_eq
      | ok data middle =>
          rw [call_eq] at earlier_eq
          dsimp only at earlier_eq ⊢
          cases rest_eq : performAll inputLimit earlier middle with
          | error exn last =>
              rw [rest_eq] at earlier_eq
              cases earlier_eq
          | ok others last =>
              rw [rest_eq] at earlier_eq
              cases earlier_eq
              rw [ih rest_eq]
              cases performAll inputLimit later next <;> rfl

end Call

/-! ## Which messages are read -/

section Decoding

variable {inputLimit : Positive} {framing : Framing}

/-- The connection that `Get_Response` leaves is in front of the first chunk. -/
theorem partway_chooseTransfer {socket : Buffered} {rest : Octets} (flowing : socket.Flows)
    (content : socket.unread = rest) :
    Partway (chooseTransfer true (Http2.text "chunked") none socket) [] rest :=
  ⟨rfl, rfl, flowing, content⟩

theorem decodes_of_plain (plain : framing.Plain inputLimit) : Decodes inputLimit framing := by
  intro socket following flowing content calls
  have position := At.reading plain (partway_chooseTransfer flowing content)
  obtain ⟨pieces, last, after, calls_eq, served, last_position⟩ :=
    Call.performAll_served calls position
  refine ⟨pieces, last, after, calls_eq, served, ?_⟩
  cases last_position with
  | beyond transfer_eq unread_eq => exact ⟨iff_of_true trivial transfer_eq, fun _ => unread_eq⟩
  | reading _ partway =>
      refine ⟨iff_of_false id fun beyond => ?_, False.elim⟩
      rw [partway.transfer_eq] at beyond
      cases beyond

/-- The rest of a chunk can be read. -/
theorem Partway.skips {connection : HttpConnection} {left rest : Octets}
    (partway : Partway connection left rest) :
    ∃ calls pieces next, Call.performAll inputLimit calls connection = .ok pieces next ∧
      Partway next [] rest ∧
      ∀ bound, connection.socket.PiecesWithin bound → next.socket.PiecesWithin bound := by
  induction length_eq : left.length using Nat.strong_induction_on generalizing connection left with
  | _ length ih =>
      by_cases left_nil : left = []
      · exact ⟨[], [], connection, rfl, left_nil ▸ partway, fun _ => id⟩
      · obtain ⟨data, next, left', part_eq, left_eq, _, data_ne, next_partway, next_pieces⟩ :=
          HttpConnection.readChunk_ok 1 partway left_nil
        have data_pos := List.length_pos_iff.2 (data_ne Nat.one_pos)
        have shorter : left'.length < length := by
          rw [← length_eq, left_eq, List.length_append]
          omega
        obtain ⟨calls, pieces, last, calls_eq, last_partway, last_pieces⟩ :=
          ih left'.length shorter next_partway rfl
        refine ⟨.readSome 1 :: calls, data :: pieces, last, ?_, last_partway,
          fun bound within => last_pieces bound (next_pieces bound within)⟩
        have read_eq := (HttpConnection.readSome_within 1 partway left_nil).trans part_eq
        rw [Call.performAll, Call.perform, read_eq]
        dsimp only
        rw [calls_eq]

/-- Plain chunks can be read up to what follows them. -/
theorem Partway.passes {connection : HttpConnection} {chunks : List Chunk} {rest : Octets}
    (chunks_plain : ∀ chunk ∈ chunks, chunk.size.Plain inputLimit)
    (partway : Partway connection [] (chunks.flatMap Chunk.octets ++ rest)) :
    ∃ calls pieces next, Call.performAll inputLimit calls connection = .ok pieces next ∧
      Partway next [] rest ∧
      ∀ bound, connection.socket.PiecesWithin bound → next.socket.PiecesWithin bound := by
  induction chunks generalizing connection with
  | nil => exact ⟨[], [], connection, rfl, partway, fun _ => id⟩
  | cons chunk chunks ih =>
      rw [List.forall_mem_cons] at chunks_plain
      rw [List.flatMap_cons, List.append_assoc] at partway
      obtain ⟨opened, read_eq, opened_partway, opened_pieces⟩ :=
        HttpConnection.readSome_chunk 1 partway chunks_plain.1
      obtain ⟨data, next, left, part_eq, _, _, _, next_partway, next_pieces⟩ :=
        HttpConnection.readChunk_ok 1 opened_partway chunk.data_ne
      obtain ⟨skips, skipped, behind, skips_eq, behind_partway, behind_pieces⟩ := next_partway.skips
      obtain ⟨calls, pieces, last, calls_eq, last_partway, last_pieces⟩ :=
        ih chunks_plain.2 behind_partway
      refine ⟨.readSome 1 :: (skips ++ calls), data :: (skipped ++ pieces), last, ?_, last_partway,
        fun bound within => last_pieces bound (behind_pieces bound
          (next_pieces bound (opened_pieces bound within)))⟩
      rw [Call.performAll, Call.perform, read_eq.trans part_eq]
      dsimp only
      rw [Call.performAll_append skips calls skips_eq, calls_eq]

/-- A socket that receives octet by octet. -/
def trickle (octets : Octets) : Buffered where
  arrivals := octets.map fun octet => .data [octet] (Net.Arrival.single_ne octet)

theorem trickle_unread (octets : Octets) : (trickle octets).unread = octets := by
  show (octets.map _).flatMap _ = octets
  rw [List.flatMap_map]
  exact List.flatMap_singleton' octets

theorem trickle_flows (octets : Octets) : (trickle octets).Flows := by
  intro arrival among
  obtain ⟨octet, _, rfl⟩ := List.mem_map.1 among
  exact List.cons_ne_nil _ _

theorem trickle_pieces (octets : Octets) : (trickle octets).PiecesWithin 1 := by
  refine ⟨Nat.zero_le _, fun arrival among => ?_⟩
  obtain ⟨octet, _, rfl⟩ := List.mem_map.1 among
  exact le_rfl

/-- A message that is read as it was sent can be read behind its plain chunks. -/
theorem Decodes.reads_behind (decodes : Decodes inputLimit framing) {earlier : List Chunk}
    {rest : Octets} (octets_eq : framing.octets = earlier.flatMap Chunk.octets ++ rest)
    (earlier_plain : ∀ chunk ∈ earlier, chunk.size.Plain inputLimit) :
    ∃ connection data next, Partway connection [] rest ∧ connection.socket.PiecesWithin 1 ∧
      connection.readSome inputLimit 1 = .ok data next ∧
      (next.transfer = .endResponse → next.socket.unread = []) := by
  have start := partway_chooseTransfer (trickle_flows framing.octets)
    ((trickle_unread framing.octets).trans octets_eq)
  obtain ⟨calls, pieces, connection, calls_eq, partway, within⟩ := start.passes earlier_plain
  obtain ⟨_, last, after, all_eq, _, ended_iff, ended_unread⟩ :=
    decodes (trickle framing.octets) [] (trickle_flows _)
      ((trickle_unread _).trans (List.append_nil _).symm) (calls ++ [.readSome 1])
  rw [Call.performAll_append calls _ calls_eq, Call.performAll, Call.perform] at all_eq
  cases read_eq : connection.readSome inputLimit 1 with
  | error exn next =>
      rw [read_eq] at all_eq
      cases all_eq
  | ok data next =>
      rw [read_eq] at all_eq
      cases all_eq
      exact ⟨connection, data, last, partway, within 1 (trickle_pieces _), read_eq,
        fun beyond => ended_unread (ended_iff.2 beyond)⟩

/-- The size line behind plain chunks is plain. -/
theorem Decodes.size_plain (decodes : Decodes inputLimit framing) {earlier : List Chunk}
    {size : SizeLine} {rest : Octets}
    (octets_eq : framing.octets = earlier.flatMap Chunk.octets ++ (size.octets ++ rest))
    (earlier_plain : ∀ chunk ∈ earlier, chunk.size.Plain inputLimit) :
    size.Plain inputLimit := by
  by_contra not_plain
  obtain ⟨connection, data, next, partway, pieces, read_eq, _⟩ :=
    decodes.reads_behind octets_eq earlier_plain
  obtain ⟨exn, refused, refused_eq⟩ := HttpConnection.nextChunk_refused partway pieces not_plain
  rw [HttpConnection.readSome_between 1 partway, refused_eq] at read_eq
  cases read_eq

/-- The chunks of a message that is read as it was sent are plain. -/
theorem Decodes.chunks_plain (decodes : Decodes inputLimit framing) {earlier later : List Chunk}
    (chunks_eq : framing.chunks = earlier ++ later)
    (earlier_plain : ∀ chunk ∈ earlier, chunk.size.Plain inputLimit) :
    ∀ chunk ∈ framing.chunks, chunk.size.Plain inputLimit := by
  induction later generalizing earlier with
  | nil =>
      rw [List.append_nil] at chunks_eq
      rwa [chunks_eq]
  | cons chunk later ih =>
      have octets_eq : framing.octets = earlier.flatMap Chunk.octets ++ (chunk.size.octets ++
          (chunk.data ++ crlf ++ later.flatMap Chunk.octets ++ framing.ending)) := by
        simp [Framing.octets, chunks_eq, Chunk.octets]
      have chunk_plain := decodes.size_plain octets_eq earlier_plain
      have further_plain : ∀ other ∈ earlier ++ [chunk], other.size.Plain inputLimit := by
        rw [List.forall_mem_append, List.forall_mem_singleton]
        exact ⟨earlier_plain, chunk_plain⟩
      have further_eq : framing.chunks = (earlier ++ [chunk]) ++ later := by
        rw [chunks_eq, List.append_assoc]
        rfl
      exact ih further_eq further_plain

/-- A message that is read as it was sent has no trailer fields. -/
theorem Decodes.trailers_nil (decodes : Decodes inputLimit framing)
    (chunks_plain : ∀ chunk ∈ framing.chunks, chunk.size.Plain inputLimit)
    (last_plain : framing.last.Plain inputLimit) : framing.trailers = [] := by
  obtain ⟨connection, data, next, partway, _, read_eq, over_unread⟩ :=
    decodes.reads_behind rfl chunks_plain
  cases trailers_eq : framing.trailers with
  | nil => rfl
  | cons field trailers =>
      exfalso
      have field_line : lf ∉ field := framing.trailers_line field (by rw [trailers_eq]; simp)
      have rest_eq : framing.ending = framing.last.octets ++
          (field ++ crlf ++ (trailers.flatMap (· ++ crlf) ++ crlf)) := by
        simp [Framing.ending, trailers_eq]
      rw [rest_eq] at partway
      obtain ⟨socket, opened_eq, taken, socket_unread⟩ :=
        HttpConnection.nextChunk_ok partway last_plain
      rw [HttpConnection.readSome_between 1 partway, opened_eq] at read_eq
      dsimp only at read_eq
      rw [if_pos framing.last_zero, HttpConnection.skipLine, HttpConnection.onSocket] at read_eq
      obtain ⟨behind, line_eq, _, behind_unread⟩ | ⟨exn, behind, failed_eq, _⟩ :=
        @Buffered.getLine_spec _ inputLimit _ _ (taken.flows partway.flows) socket_unread field_line
      · rw [line_eq] at read_eq
        cases read_eq
        have nothing : behind.unread = [] := over_unread rfl
        rw [behind_unread] at nothing
        exact List.cons_ne_nil _ _ (List.append_eq_nil_iff.1 nothing).2
      · rw [failed_eq] at read_eq
        cases read_eq

/-- A chunked message is read as it was sent exactly when it has no chunk extensions and no trailer
fields, its sizes are in `Natural` and its size lines are within the limit for input. -/
theorem decodes_iff_plain (inputLimit : Positive) (framing : Framing) :
    Decodes inputLimit framing ↔ framing.Plain inputLimit := by
  refine ⟨fun decodes => ?_, decodes_of_plain⟩
  have chunks_plain := decodes.chunks_plain (List.nil_append framing.chunks).symm
    (List.forall_mem_nil _)
  have octets_eq : framing.octets = framing.chunks.flatMap Chunk.octets ++
      (framing.last.octets ++ (framing.trailers.flatMap (· ++ crlf) ++ crlf)) := by
    rw [Framing.octets, Framing.ending, List.append_assoc]
  have last_plain := decodes.size_plain octets_eq chunks_plain
  exact ⟨chunks_plain, last_plain, decodes.trailers_nil chunks_plain last_plain⟩

/-- A call of `Read` with a buffer that is larger than the payload returns the payload. -/
theorem Decodes.read_all (decodes : Decodes inputLimit framing) {size : Nat}
    (large : framing.payload.length < size) :
    ∃ last, Call.performAll inputLimit [.read size]
      (chooseTransfer true (Http2.text "chunked") none (trickle framing.octets)) =
        .ok [framing.payload] last := by
  obtain ⟨pieces, last, after, read_eq, served, -⟩ := decodes (trickle framing.octets) []
    (trickle_flows _) ((trickle_unread _).trans (List.append_nil _).symm) [.read size]
  obtain _ | ⟨served, done⟩ := served
  cases done
  rename_i data
  have rest_eq : framing.payload = data ++ after.rest := served.rest_eq
  have short : data.length < size := by
    rw [rest_eq, List.length_append] at large
    omega
  have ended : after.ended := (served.reported (Nat.zero_lt_of_lt large)).1 short
  rw [served.complete ended, List.append_nil] at rest_eq
  exact ⟨last, rest_eq ▸ read_eq⟩

/-- The octets of messages that are read as they were sent say what their payload is. -/
theorem Decodes.payload_eq {other : Framing} (decodes : Decodes inputLimit framing)
    (other_decodes : Decodes inputLimit other) (same : framing.octets = other.octets) :
    framing.payload = other.payload := by
  obtain ⟨last, read_eq⟩ := decodes.read_all
    (Nat.lt_succ_of_le (Nat.le_add_right _ other.payload.length))
  obtain ⟨other_last, other_eq⟩ := other_decodes.read_all
    (Nat.lt_succ_of_le (Nat.le_add_left _ framing.payload.length))
  rw [same, other_eq] at read_eq
  injection read_eq with pieces_eq
  exact (List.singleton_inj.1 pieces_eq).symm

theorem hexadecimal_one : Hexadecimal [49] := by
  rw [Hexadecimal]
  decide +kernel

theorem hexadecimal_zero : Hexadecimal [48] := by
  rw [Hexadecimal]
  decide +kernel

/-- The line `1`, which announces one octet. -/
def oneOctet : SizeLine where
  digits := [49]
  extension := []
  digits_ne := List.cons_ne_nil _ _
  hexadecimal := hexadecimal_one
  extension_start := SizeLine.nil_start
  extension_line := List.not_mem_nil

/-- The line `0`, which announces the end. -/
def noOctet : SizeLine where
  digits := [48]
  extension := []
  digits_ne := List.cons_ne_nil _ _
  hexadecimal := hexadecimal_zero
  extension_start := SizeLine.nil_start
  extension_line := List.not_mem_nil

/-- The body `a` with the trailer field `x:y`. -/
def withTrailer : Framing where
  chunks := [{ size := oneOctet, data := [97], data_ne := by decide, value_eq := by decide }]
  last := noOctet
  trailers := [[120, 58, 121]]
  last_zero := by decide
  trailers_ne := by decide
  trailers_line := by decide

/-- A trailer field leaves the end of the message in front of the next response. -/
theorem trailer_left_over : ¬Decodes ⟨16384, by decide⟩ withTrailer := by
  intro decodes
  have chunks_plain : ∀ chunk ∈ withTrailer.chunks, chunk.size.Plain ⟨16384, by decide⟩ :=
    List.forall_mem_singleton.2 ⟨rfl, by decide, by decide⟩
  exact List.cons_ne_nil _ _ (decodes.trailers_nil chunks_plain ⟨rfl, by decide, by decide⟩)

end Decoding
end Client
end AdaWebServer

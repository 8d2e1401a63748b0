import AdaWebServer.Http2.SendFile

/-!
# Pieces of a resource

`Send_File` puts the next octets of a resource in data frames, as many as the flow-control window
allows, and sets `End_Stream_Flag` on the last frame of the resource alone.
-/

namespace AdaWebServer
namespace Http2

open Resources

/-- The content of the data frames of a list. -/
def payloads : List Frame → Octets
  | [] => []
  | frame :: frames =>
      match frame.payload with
      | .data content => content ++ payloads frames
      | _ => payloads frames

@[simp]
theorem payloads_append (front back : List Frame) :
    payloads (front ++ back) = payloads front ++ payloads back := by
  induction front with
  | nil => rfl
  | cons frame front ih =>
      simp only [List.cons_append, payloads]
      split
      · rw [ih, List.append_assoc]
      · exact ih

/-- `End_Stream_Flag` is set on the last frame exactly when the list ends the stream, and on no
other. -/
def Marked (done : Bool) : List Frame → Prop
  | [] => done = false
  | [last] => last.hasFlag endStreamFlag = done
  | frame :: next :: frames =>
      frame.hasFlag endStreamFlag = false ∧ Marked done (next :: frames)

theorem Marked.append {done : Bool} {front back : List Frame} (quiet : Marked false front)
    (marked : Marked done back) : Marked done (front ++ back) := by
  induction front with
  | nil => exact marked
  | cons frame front ih =>
      cases front with
      | nil =>
          cases back with
          | nil =>
              obtain rfl : done = false := marked
              exact quiet
          | cons next back => exact ⟨quiet, marked⟩
      | cons next front => exact ⟨quiet.1, ih quiet.2⟩

theorem marked_false_of_quiet {frames : List Frame}
    (quiet : ∀ frame ∈ frames, frame.hasFlag endStreamFlag = false) : Marked false frames := by
  induction frames with
  | nil => rfl
  | cons frame frames ih =>
      have single : Marked false [frame] := quiet frame List.mem_cons_self
      exact single.append (ih fun other member => quiet other (List.mem_cons_of_mem frame member))

theorem payloads_of_kinds {frames : List Frame} (kinds : ∀ frame ∈ frames, frame.kind ≠ .data) :
    payloads frames = [] := by
  induction frames with
  | nil => rfl
  | cons frame frames ih =>
      have other := kinds frame List.mem_cons_self
      rw [payloads]
      split
      · next payload =>
          rw [Frame.kind, payload] at other
          exact absurd rfl other
      · exact ih fun later member => kinds later (List.mem_cons_of_mem frame member)

/-- The flag that `Data.Create` sets. -/
@[simp]
theorem createData_endStream (streamId : StreamId) (content : Octets) (endStream : Bool) :
    (Frame.createData streamId content endStream).hasFlag endStreamFlag = endStream := by
  cases endStream <;> simp [Frame.createData, Frame.hasFlag, endStreamFlag]

/-- Data frames that hold the given octets and may end the stream. -/
structure Pieces (limit : Nat) (data : Octets) (done : Bool) (frames : List Frame) : Prop where
  nonempty : frames ≠ []
  payload : payloads frames = data
  kinds : ∀ frame ∈ frames, frame.kind = .data
  sizes : ∀ frame ∈ frames, frame.length ≤ limit
  marked : Marked done frames

/-- One data frame. -/
theorem pieces_single {streamId : StreamId} {limit : Nat} {data : Octets} {done : Bool}
    (fits : data.length ≤ limit) : Pieces limit data done [Frame.createData streamId data done] where
  nonempty := List.cons_ne_nil _ _
  payload := by simp [payloads, Frame.createData]
  kinds := by simp [Frame.createData, Frame.kind]
  sizes := by simpa [Frame.createData] using fits
  marked := createData_endStream streamId data done

/-- One more data frame in front. -/
theorem Pieces.cons {streamId : StreamId} {limit : Nat} {data rest : Octets} {done : Bool}
    {frames : List Frame} (later : Pieces limit rest done frames) (fits : data.length ≤ limit) :
    Pieces limit (data ++ rest) done (Frame.createData streamId data false :: frames) where
  nonempty := List.cons_ne_nil _ _
  payload := by simp [payloads, Frame.createData, later.payload]
  kinds := by simpa [Frame.createData, Frame.kind] using later.kinds
  sizes := by simpa [Frame.createData] using And.intro fits later.sizes
  marked := (show Marked false [Frame.createData streamId data false] from
    createData_endStream streamId data false).append later.marked

namespace Framing

section Turn

variable {Resource : Type} [StreamType Resource] {streamId : StreamId} {fuel : Nat}
  {file after : Resource} {framing : Framing} {nextSize sent : Nat} {data : Octets}

/-- The framing after a piece. -/
def created (streamId : StreamId) (framing : Framing) (data : Octets) (ended : Bool) : Framing where
  list := framing.list ++ [Frame.createData streamId data ended]
  fcw := framing.fcw - data.length
  bSent := framing.bSent || ended

/-- The last turn of the loop of `Send_File`. -/
theorem sendPieces_last (read : StreamType.read file nextSize = .ok (data, after))
    (ended : StreamType.endOfFile after = true) (data_ne : data ≠ [])
    (allowed : data.length ≤ framing.fcw) :
    sendPieces streamId (fuel + 1) file framing nextSize sent =
      .ok (after, created streamId framing data true, sent + data.length) := by
  rw [sendPieces, read]
  simp [createDataFrame, created, naturalSub_of_le allowed, data_ne, ended]

/-- Any other turn of the loop of `Send_File` that has read something. -/
theorem sendPieces_turn (read : StreamType.read file nextSize = .ok (data, after))
    (ended : StreamType.endOfFile after = false) (data_ne : data ≠ []) (nonzero : nextSize ≠ 0)
    (allowed : data.length ≤ framing.fcw) :
    sendPieces streamId (fuel + 1) file framing nextSize sent =
      if framing.fcw - data.length = 0 then
        .ok (after, created streamId framing data false, sent + data.length)
      else
        sendPieces streamId fuel after (created streamId framing data false)
          (min (framing.fcw - data.length) nextSize) (sent + data.length) := by
  have chunk : (if framing.fcw - data.length < nextSize then framing.fcw - data.length
      else nextSize) = min (framing.fcw - data.length) nextSize := by
    split <;> omega
  have stops : min (framing.fcw - data.length) nextSize = 0 ↔ framing.fcw - data.length = 0 := by
    omega
  rw [sendPieces, read]
  simp [createDataFrame, created, naturalSub_of_le allowed, data_ne, ended, nonzero, chunk, stops]

end Turn

variable {Resource : Type} [StreamType Resource] [Documented Resource]

/-- The loop of `Send_File` has put in frames what the window allows. -/
def Delivers (content : Octets) (limit : Nat) (framing : Framing) (sent : Nat)
    (outcome : Except Exn (Resource × Framing × Nat)) : Prop :=
  ∃ after final frames position,
    outcome = .ok (after, final, min (sent + framing.fcw) content.length) ∧
    Documented.Holds after content position ∧ final.list = framing.list ++ frames ∧
    final.bSent = decide (content.length ≤ sent + framing.fcw) ∧
    Pieces limit ((content.drop sent).take framing.fcw)
      (decide (content.length ≤ sent + framing.fcw)) frames

/-- The last piece that the window allows. -/
private theorem delivers_piece {streamId : StreamId} {content data rest : Octets}
    {limit sent : Nat} {framing : Framing} {after : Resource} {ended : Bool}
    (next : data ++ rest = content.drop sent) (data_ne : data ≠ [])
    (fits : data.length ≤ limit) (allowed : data.length ≤ framing.fcw)
    (unsent : framing.bSent = false)
    (holds : Documented.Holds after content (sent + data.length))
    (reached : ended = true ∧ rest = [] ∨
      ended = false ∧ rest ≠ [] ∧ framing.fcw = data.length) :
    Delivers content limit framing sent
      (.ok (after, created streamId framing data ended, sent + data.length)) := by
  have lengths := congrArg List.length next
  rw [List.length_append, List.length_drop] at lengths
  have data_pos := List.length_pos_iff.mpr data_ne
  have all : (content.drop sent).take framing.fcw = data := by
    rw [← next]
    rcases reached with ⟨-, rfl⟩ | ⟨-, -, exact⟩
    · rw [List.append_nil, List.take_of_length_le allowed]
    · rw [exact, List.take_left]
  have done : decide (content.length ≤ sent + framing.fcw) = ended := by
    rcases reached with ⟨rfl, rfl⟩ | ⟨rfl, rest_ne, exact⟩
    · rw [List.length_nil] at lengths
      exact decide_eq_true (by omega)
    · have rest_pos := List.length_pos_iff.mpr rest_ne
      exact decide_eq_false (by omega)
  have sum : sent + data.length = min (sent + framing.fcw) content.length := by
    rcases reached with ⟨-, rfl⟩ | ⟨-, -, exact⟩
    · rw [List.length_nil] at lengths
      omega
    · omega
  refine ⟨after, _, _, _, by rw [sum], holds, rfl, ?_, ?_⟩
  · rw [done, created, unsent, Bool.false_or]
  · rw [all, done]
    exact pieces_single fits

/-- The loop of `Send_File` puts in frames what the window allows. -/
theorem sendPieces_delivers {streamId : StreamId} {content : Octets} {limit : Nat} (fuel : Nat) :
    ∀ {file : Resource} {framing : Framing} {nextSize sent : Nat},
      Documented.Holds file content sent → sent < content.length → 0 < nextSize →
      nextSize ≤ framing.fcw → nextSize ≤ limit → framing.fcw < fuel → framing.bSent = false →
      Delivers content limit framing sent
        (sendPieces streamId fuel file framing nextSize sent) := by
  induction fuel with
  | zero => intros; omega
  | succ fuel ih =>
      intro file framing nextSize sent holds unfinished nonzero allowed small enough unsent
      obtain ⟨data, after, read, data_ne, ⟨rest, next⟩, after_holds⟩ :=
        Documented.read_within holds unfinished nonzero
      have fits := StreamType.read_fits read
      have data_pos := List.length_pos_iff.mpr data_ne
      have lengths := congrArg List.length next
      rw [List.length_append, List.length_drop] at lengths
      cases ended : StreamType.endOfFile after with
      | true =>
          have finished := (Documented.endOfFile_iff after_holds).mp ended
          have rest_nil : rest = [] := List.eq_nil_of_length_eq_zero (by omega)
          rw [sendPieces_last read ended data_ne (fits.trans allowed)]
          exact delivers_piece next data_ne (fits.trans small) (fits.trans allowed) unsent
            after_holds (Or.inl ⟨rfl, rest_nil⟩)
      | false =>
          have more : ¬content.length ≤ sent + data.length := fun finished =>
            Bool.false_ne_true (ended.symm.trans ((Documented.endOfFile_iff after_holds).mpr finished))
          rw [sendPieces_turn read ended data_ne nonzero.ne' (fits.trans allowed)]
          by_cases exhausted : framing.fcw - data.length = 0
          · have rest_ne : rest ≠ [] := by
              rintro rfl
              rw [List.length_nil] at lengths
              omega
            rw [if_pos exhausted]
            exact delivers_piece next data_ne (fits.trans small) (fits.trans allowed) unsent
              after_holds (Or.inr ⟨rfl, rest_ne, by omega⟩)
          · rw [if_neg exhausted]
            obtain ⟨last, final, frames, position, outcome, last_holds, list, body, pieces⟩ :=
              @ih _ (created streamId framing data false)
                (min (framing.fcw - data.length) nextSize) _ after_holds (by omega) (by omega)
                (min_le_left _ _) (by omega) (by simp only [created]; omega)
                (by rw [created, unsent, Bool.false_or])
            have window_left : sent + data.length + (framing.fcw - data.length) =
                sent + framing.fcw := by omega
            have dropped : content.drop (sent + data.length) = rest := by
              rw [← List.drop_drop, ← next, List.drop_left]
            have all : (content.drop sent).take framing.fcw =
                data ++ rest.take (framing.fcw - data.length) := by
              rw [← next, List.take_append, List.take_of_length_le (fits.trans allowed)]
            simp only [created, window_left, dropped] at outcome list body pieces
            refine ⟨last, final, Frame.createData streamId data false :: frames, position, outcome,
              last_holds, ?_, body, ?_⟩
            · rw [list, List.append_assoc]
              rfl
            · rw [all]
              exact pieces.cons (fits.trans small)

end Framing
end Http2
end AdaWebServer

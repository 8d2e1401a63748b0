import AdaWebServer.Client.Chunked
import AdaWebServer.Foundations.Loops
import AdaWebServer.Resources.Stream
import AdaWebServer.Utils.Hex

/-!
# Sending a resource in chunks

A resource of unknown size is sent as one chunk for each call of `Read`.  A call that does not fill the
buffer is taken for the last one, so that the resource is sent exactly when no earlier call returns less
than the buffer holds.

What is written to the socket succeeds, and no data timeout expires.
-/

namespace AdaWebServer
namespace Server
namespace ChunkedSending

open Client (Chunk Framing SizeLine Decodes)
open Http2 (Octets Exn Positive text)
open Net (crlf lf)
open Resources (StreamType Documented)
open Utils (hex)

/-- `Chunk_Size`. -/
def chunkSize : Nat := 1024

/-- `Last_Chunk`. -/
def lastChunk : Octets := text "0" ++ crlf ++ crlf

variable {Stream : Type} [StreamType Stream]

/-- The resource, `Length`, and what has been sent. -/
structure Sending (Stream : Type) where
  file : Stream
  length : Nat := 0
  sent : Octets := []

/-- A turn of `Send_Chunks`. -/
def sendChunk (self : Sending Stream) :
    Trial Exn (Turn (Sending Stream) (Sending Stream)) :=
  match StreamType.read self.file chunkSize with
  | .error exn => .error (.raised exn)
  | .ok (buffer, file) =>
      if buffer.length = 0 then .ok (.leave { self with file, sent := self.sent ++ lastChunk })
      else
        let length := self.length + buffer.length
        let chunk := hex buffer.length ++ crlf ++ buffer ++ crlf
        if buffer.length < chunkSize then
          .ok (.leave { file, length, sent := self.sent ++ (chunk ++ lastChunk) })
        else .ok (.again { file, length, sent := self.sent ++ chunk })

/-- `Send_File_Chunked`, for at most a number of chunks. -/
def sendFileChunked (file : Stream) (times : Nat) : Trial Exn (Sending Stream) :=
  turns sendChunk times { file }

/-! ## What is sent and what is read -/

/-- What has been sent is a chunked body with the content, which the client reads as it was sent. -/
def Delivers (content sent : Octets) : Prop :=
  ∃ framing : Framing, framing.octets = sent ∧ framing.trailers = [] ∧ framing.payload = content ∧
    ∀ inputLimit : Positive, 3 < inputLimit.1 → Decodes inputLimit framing

/-- What some calls of `Read` return, one after another. -/
def readTimes : Nat → Stream → Except Exn (Octets × Stream)
  | 0, file => .ok ([], file)
  | times + 1, file => do
      let (buffer, next) ← StreamType.read file chunkSize
      let (later, after) ← readTimes times next
      return (buffer ++ later, after)

/-- A call of `Read` that does not fill the buffer is the last one that returns something. -/
def FillsBuffer (content : Octets) (file : Stream) : Prop :=
  ∀ times earlier middle buffer after, readTimes times file = .ok (earlier, middle) →
    StreamType.read middle chunkSize = .ok (buffer, after) → buffer.length < chunkSize →
      earlier ++ buffer = content

/-- At the end of the stream, `Read` returns nothing. -/
class ReadsEnd (Stream : Type) [StreamType Stream] [Documented Stream] : Prop where
  read_at_end {stream : Stream} {content : Octets}
    (holds : Documented.Holds stream content content.length) (room : Nat) :
    ∃ after, StreamType.read stream room = .ok ([], after) ∧
      Documented.Holds after content content.length

instance : ReadsEnd Resources.DiskStream where
  read_at_end := by
    rintro stream content ⟨file_eq, index_eq⟩ room
    have nothing : (stream.file.drop stream.index).take room = [] := by
      rw [file_eq, index_eq, List.drop_length, List.take_nil]
    refine ⟨stream, ?_, file_eq, index_eq⟩
    show Resources.DiskStream.read stream room = _
    rw [Resources.DiskStream.read, nothing]
    rfl

/-! ## Chunks -/

/-- The line with the size of some octets. -/
def sizeLine (size : Nat) : SizeLine where
  digits := hex size
  extension := []
  digits_ne := Utils.hex_ne_nil size
  hexadecimal := (Utils.hex_spec size).1
  extension_start := SizeLine.nil_start
  extension_line := List.not_mem_nil

/-- The chunk with some octets. -/
def chunkOf (buffer : Octets) (some_octets : buffer ≠ []) : Chunk where
  size := sizeLine buffer.length
  data := buffer
  data_ne := some_octets
  value_eq := (Utils.hex_spec buffer.length).2

/-- The body with some chunks and the line that ends it. -/
def framingOf (chunks : List Chunk) : Framing where
  chunks
  last := sizeLine 0
  trailers := []
  last_zero := (Utils.hex_spec 0).2
  trailers_ne := Framing.nil_ne
  trailers_line := Framing.nil_line

/-- The chunk is not larger than a buffer. -/
def Buffered (chunk : Chunk) : Prop := chunk.size = sizeLine chunk.data.length ∧
  chunk.data.length ≤ chunkSize

theorem plain_sizeLine {inputLimit : Positive} (large : 3 < inputLimit.1) {size : Nat}
    (small : size ≤ chunkSize) : (sizeLine size).Plain inputLimit where
  extension_nil := rfl
  digits_fit :=
    (Utils.length_hex_le (by decide : 0 < 3) (Nat.lt_of_le_of_lt small (by decide))).trans_lt large
  value_le := by
    rw [SizeLine.value, show Client.hexNumber (sizeLine size).digits = size from
      (Utils.hex_spec size).2]
    exact small.trans (by decide)

theorem framingOf_octets (chunks : List Chunk) :
    (framingOf chunks).octets = chunks.flatMap Chunk.octets ++ lastChunk := by
  rw [Framing.octets, Framing.ending]
  rfl

/-- Chunks of buffers, and the line that ends them, deliver what is in the chunks. -/
theorem delivers_framingOf {chunks : List Chunk} (buffered : ∀ chunk ∈ chunks, Buffered chunk) :
    Delivers (chunks.flatMap Chunk.data) (chunks.flatMap Chunk.octets ++ lastChunk) := by
  refine ⟨framingOf chunks, framingOf_octets chunks, rfl, rfl, fun inputLimit large => ?_⟩
  refine Client.decodes_of_plain ⟨fun chunk among => ?_, plain_sizeLine large (Nat.zero_le _), rfl⟩
  rw [(buffered chunk among).1]
  exact plain_sizeLine large (buffered chunk among).2

theorem Delivers.content_eq {content other sent : Octets} (delivers : Delivers content sent)
    (other_delivers : Delivers other sent) : content = other := by
  obtain ⟨framing, octets_eq, -, rfl, decodes⟩ := delivers
  obtain ⟨framing', octets_eq', -, rfl, decodes'⟩ := other_delivers
  exact (decodes ⟨4, by decide⟩ (by decide)).payload_eq (decodes' ⟨4, by decide⟩ (by decide))
    (octets_eq.trans octets_eq'.symm)

/-! ## The loop -/

variable {file next : Stream} {buffer content rest : Octets}

/-- After one more call of `Read`, the buffer still has to be filled by the later ones. -/
theorem fillsBuffer_append_iff (read : StreamType.read file chunkSize = .ok (buffer, next)) :
    FillsBuffer (buffer ++ rest) file ↔
      (buffer.length < chunkSize → rest = []) ∧ FillsBuffer rest next := by
  constructor
  · intro fills
    constructor
    · intro short
      have whole := fills 0 [] file buffer next rfl read short
      exact List.self_eq_append_right.1 whole
    · intro times earlier middle last after earlier_eq last_eq short
      have earlier_eq' : readTimes (times + 1) file = .ok (buffer ++ earlier, middle) := by
        rw [readTimes, read, Http2.ok_bind]
        dsimp only
        rw [earlier_eq]
        rfl
      have whole := fills (times + 1) (buffer ++ earlier) middle last after earlier_eq' last_eq short
      rw [List.append_assoc] at whole
      exact List.append_cancel_left whole
  · rintro ⟨last_one, fills⟩ times earlier middle last after earlier_eq last_eq short
    cases times with
    | zero =>
        cases earlier_eq
        cases read.symm.trans last_eq
        rw [last_one short, List.append_nil, List.nil_append]
    | succ times =>
        rw [readTimes, read, Http2.ok_bind] at earlier_eq
        dsimp only at earlier_eq
        cases later_eq : readTimes times next with
        | error exn =>
            rw [later_eq] at earlier_eq
            cases earlier_eq
        | ok later =>
            rw [later_eq] at earlier_eq
            cases earlier_eq
            rw [List.append_assoc,
              fills times later.1 later.2 last after later_eq last_eq short]

variable [Documented Stream] [ReadsEnd Stream]

theorem fillsBuffer_end (holds : Documented.Holds file content content.length) :
    FillsBuffer [] file := by
  have nothing : ∀ times (file : Stream), Documented.Holds file content content.length →
      ∃ after, readTimes times file = .ok ([], after) ∧
        Documented.Holds after content content.length := by
    intro times
    induction times with
    | zero => exact fun file holds => ⟨file, rfl, holds⟩
    | succ times ih =>
        intro file holds
        obtain ⟨next, read, next_holds⟩ := ReadsEnd.read_at_end holds chunkSize
        obtain ⟨after, later, after_holds⟩ := ih next next_holds
        refine ⟨after, ?_, after_holds⟩
        rw [readTimes, read, Http2.ok_bind]
        dsimp only
        rw [later]
        rfl
  intro times earlier middle buffer after earlier_eq read _
  obtain ⟨stays, stays_eq, stays_holds⟩ := nothing times file holds
  cases stays_eq.symm.trans earlier_eq
  obtain ⟨last, last_eq, -⟩ := ReadsEnd.read_at_end stays_holds chunkSize
  cases last_eq.symm.trans read
  rfl

/-- The chunks that are sent have the rest of the content exactly when the buffer is filled. -/
theorem turns_sendChunk {self : Sending Stream} {position : Nat}
    (holds : Documented.Holds self.file content position) (within : position ≤ content.length) :
    ∃ times result, ∃ chunks : List Chunk, turns sendChunk times self = .ok result ∧
      (∀ chunk ∈ chunks, Buffered chunk) ∧
      result.sent = self.sent ++ (chunks.flatMap Chunk.octets ++ lastChunk) ∧
      result.length = self.length + (chunks.flatMap Chunk.data).length ∧
      (chunks.flatMap Chunk.data = content.drop position ↔
        FillsBuffer (content.drop position) self.file) := by
  induction left : content.length - position using Nat.strong_induction_on
    generalizing self position with
  | _ left ih =>
      obtain at_end | before := within.eq_or_lt
      · subst at_end
        obtain ⟨after, read, -⟩ := ReadsEnd.read_at_end holds chunkSize
        have leaves : sendChunk self =
            .ok (.leave { self with file := after, sent := self.sent ++ lastChunk }) := by
          simp only [sendChunk, read, List.length_nil, if_true]
        refine ⟨1, _, [], turns_leave leaves, (by rintro _ ⟨⟩), rfl, rfl, ?_⟩
        rw [List.drop_length]
        exact iff_of_true rfl (fillsBuffer_end holds)
      · obtain ⟨buffer, after, read, some_read, ⟨rest, rest_eq⟩, after_holds⟩ :=
          Documented.read_within holds before (by decide : 0 < chunkSize)
        have fits := StreamType.read_fits read
        have some_length : ¬buffer.length = 0 := mt List.length_eq_zero_iff.1 some_read
        have buffered : Buffered (chunkOf buffer some_read) := ⟨rfl, fits⟩
        have drop_eq : content.drop (position + buffer.length) = rest := by
          rw [← List.drop_drop, ← rest_eq, List.drop_left]
        have room : position + buffer.length ≤ content.length := by
          have lengths := congrArg List.length rest_eq
          rw [List.length_append, List.length_drop] at lengths
          omega
        rw [← rest_eq, fillsBuffer_append_iff read]
        by_cases short : buffer.length < chunkSize
        · have leaves : sendChunk self = .ok (.leave
              { file := after, length := self.length + buffer.length
                sent := self.sent ++ ((chunkOf buffer some_read).octets ++ lastChunk) }) := by
            simp only [sendChunk, read, if_neg some_length, if_pos short]
            simp [Chunk.octets, chunkOf, SizeLine.octets, SizeLine.text, sizeLine]
          refine ⟨1, _, [chunkOf buffer some_read], turns_leave leaves,
            List.forall_mem_singleton.2 buffered, by simp, by simp [chunkOf], ?_⟩
          have data_eq : [chunkOf buffer some_read].flatMap Chunk.data = buffer :=
            List.flatMap_singleton _ _
          rw [data_eq, List.self_eq_append_right]
          constructor
          · intro nothing
            subst nothing
            have after_end : Documented.Holds after content content.length := by
              rw [List.drop_eq_nil_iff] at drop_eq
              rwa [← room.antisymm drop_eq]
            exact ⟨fun _ => rfl, fillsBuffer_end after_end⟩
          · exact fun fills => fills.1 short
        · have goes_on : sendChunk self = .ok (.again
              { file := after, length := self.length + buffer.length
                sent := self.sent ++ (chunkOf buffer some_read).octets }) := by
            simp only [sendChunk, read, if_neg some_length, if_neg short]
            simp [Chunk.octets, chunkOf, SizeLine.octets, SizeLine.text, sizeLine]
          obtain ⟨times, result, chunks, ran, all, sent_eq, length_eq, fills_iff⟩ :=
            @ih (content.length - (position + buffer.length)) (by omega)
              { file := after, length := self.length + buffer.length
                sent := self.sent ++ (chunkOf buffer some_read).octets } _ after_holds room rfl
          refine ⟨times + 1, result, chunkOf buffer some_read :: chunks,
            (turns_again goes_on).trans ran, List.forall_mem_cons.2 ⟨buffered, all⟩, ?_, ?_, ?_⟩
          · rw [sent_eq, List.flatMap_cons]
            simp only [List.append_assoc]
          · rw [length_eq, List.flatMap_cons, List.length_append, Nat.add_assoc]
            rfl
          · rw [drop_eq] at fills_iff
            rw [← fills_iff, List.flatMap_cons]
            show buffer ++ _ = buffer ++ rest ↔ _
            rw [List.append_cancel_left_eq, and_iff_right fun less => absurd less short]

/-- The resource is sent exactly when every call of `Read` but the last one fills the buffer. -/
theorem sendFileChunked_delivers_iff (holds : Documented.Holds file content 0) :
    (∃ times result, sendFileChunked file times = .ok result ∧ Delivers content result.sent) ↔
      FillsBuffer content file := by
  obtain ⟨times, result, chunks, ran, buffered, sent_eq, -, fills_iff⟩ :=
    @turns_sendChunk _ _ content _ _ { file } 0 holds (Nat.zero_le _)
  rw [List.drop_zero] at fills_iff
  have delivers := delivers_framingOf buffered
  have sent_eq : result.sent = chunks.flatMap Chunk.octets ++ lastChunk := sent_eq
  rw [← sent_eq] at delivers
  rw [← fills_iff]
  constructor
  · rintro ⟨others, other, other_ran, other_delivers⟩
    rw [← turns_result_eq ran other_ran] at other_delivers
    exact delivers.content_eq other_delivers
  · rintro rfl
    exact ⟨times, result, ran, delivers⟩

omit [StreamType Stream] [Documented Stream] [ReadsEnd Stream] in
theorem fillsBuffer_disk {content : Octets} {index : Nat} (within : index ≤ content.length) :
    FillsBuffer (content.drop index) (⟨content, index⟩ : Resources.DiskStream) := by
  induction left : content.length - index using Nat.strong_induction_on generalizing index with
  | _ left ih =>
      obtain rfl | before := within.eq_or_lt
      · rw [List.drop_length]
        have holds : Documented.Holds (⟨content, content.length⟩ : Resources.DiskStream) content
          content.length := ⟨rfl, rfl⟩
        exact fillsBuffer_end holds
      · have read : StreamType.read (⟨content, index⟩ : Resources.DiskStream) chunkSize =
            .ok ((content.drop index).take chunkSize,
              ⟨content, index + ((content.drop index).take chunkSize).length⟩) := rfl
        have positive : 0 < chunkSize := by decide
        have length_eq : ((content.drop index).take chunkSize).length =
            min chunkSize (content.length - index) := by rw [List.length_take, List.length_drop]
        have fills := (@fillsBuffer_append_iff _ _ _ _ _
          ((content.drop index).drop chunkSize) read).2
        rw [List.take_append_drop] at fills
        refine fills ⟨fun short => List.drop_eq_nil_of_le ?_, ?_⟩
        · rw [List.length_drop]
          omega
        · have rest_eq : (content.drop index).drop chunkSize =
              content.drop (index + ((content.drop index).take chunkSize).length) := by
            rw [List.drop_drop, length_eq]
            rcases Nat.le_total chunkSize (content.length - index) with fits | short
            · rw [Nat.min_eq_left fits]
            · rw [Nat.min_eq_right short, List.drop_eq_nil_of_le (by omega),
                List.drop_eq_nil_of_le (by omega)]
          rw [rest_eq]
          exact ih _ (by omega) (by omega) rfl

/-- A file is sent. -/
theorem sendFileChunked_disk :
    ∃ times result, sendFileChunked (⟨[97, 98], 0⟩ : Resources.DiskStream) times = .ok result ∧
      Delivers [97, 98] result.sent := by
  have holds : Documented.Holds (⟨[97, 98], 0⟩ : Resources.DiskStream) [97, 98] 0 := ⟨rfl, rfl⟩
  exact (sendFileChunked_delivers_iff holds).2 (fillsBuffer_disk (Nat.zero_le _))

/-- A stream that returns one octet at each call of `Read`. -/
structure SlowStream where
  disk : Resources.DiskStream

instance : StreamType SlowStream where
  size stream := StreamType.size stream.disk
  setIndex stream target := SlowStream.mk <$> StreamType.setIndex stream.disk target
  read stream room := Prod.map id SlowStream.mk <$> StreamType.read stream.disk (min room 1)
  endOfFile stream := StreamType.endOfFile stream.disk
  read_fits := by
    intro stream after room data done
    cases done
    exact (List.length_take_le _ _).trans (Nat.min_le_left room 1)

instance : Documented SlowStream where
  Holds stream := Documented.Holds stream.disk
  setIndex_within := by
    intro stream content position target holds within
    obtain ⟨after, done, after_holds⟩ := Documented.setIndex_within holds within
    exact ⟨⟨after⟩, congrArg (SlowStream.mk <$> ·) done, after_holds⟩
  setIndex_beyond := by
    intro stream after content position target holds beyond done
    change SlowStream.mk <$> StreamType.setIndex stream.disk (target + 1) = _ at done
    cases seeked : StreamType.setIndex stream.disk (target + 1) with
    | error exn =>
        rw [seeked] at done
        cases done
    | ok disk =>
        rw [seeked] at done
        cases done
        exact Documented.setIndex_beyond holds beyond seeked
  read_within := by
    intro stream content position room holds within nonempty
    obtain ⟨data, after, done, facts⟩ :=
      Documented.read_within holds within (lt_min nonempty Nat.one_pos)
    exact ⟨data, ⟨after⟩, congrArg (Prod.map id SlowStream.mk <$> ·) done, facts⟩
  read_end := by
    intro stream after content data room holds done
    cases done
    exact Documented.read_end holds rfl
  endOfFile_iff := Documented.endOfFile_iff

instance : ReadsEnd SlowStream where
  read_at_end holds room := by
    obtain ⟨after, done, after_holds⟩ :=
      @ReadsEnd.read_at_end Resources.DiskStream _ _ _ _ _ holds (min room 1)
    exact ⟨⟨after⟩, congrArg (Prod.map id SlowStream.mk <$> ·) done, after_holds⟩

/-- Of a resource that is read one octet at a time, only the first octet is sent. -/
theorem short_read_truncates :
    ¬∀ (Stream : Type) [StreamType Stream] [Documented Stream] [ReadsEnd Stream] (file : Stream)
      (content : Octets), Documented.Holds file content 0 →
      ∃ times result, sendFileChunked file times = .ok result ∧ Delivers content result.sent := by
  intro all
  have holds : Documented.Holds (SlowStream.mk ⟨[97, 98], 0⟩) [97, 98] 0 :=
    (⟨rfl, rfl⟩ : Resources.DiskStream.Holds ⟨[97, 98], 0⟩ [97, 98] 0)
  obtain ⟨times, result, ran, delivers⟩ := all SlowStream ⟨⟨[97, 98], 0⟩⟩ [97, 98] holds
  have buffered : ∀ chunk ∈ [chunkOf [97] (by decide)], Buffered chunk :=
    List.forall_mem_singleton.2 ⟨rfl, by decide⟩
  have leaves : sendChunk ⟨SlowStream.mk ⟨[97, 98], 0⟩, 0, []⟩ = .ok (.leave
      ⟨⟨⟨[97, 98], 1⟩⟩, 1, [chunkOf [97] (by decide)].flatMap Chunk.octets ++ lastChunk⟩) := rfl
  obtain rfl := turns_result_eq (@turns_leave _ _ _ sendChunk 0 _ _ leaves) ran
  have truncated := delivers.content_eq (delivers_framingOf buffered)
  exact absurd truncated (by decide)

end ChunkedSending
end Server
end AdaWebServer

import AdaWebServer.Server.MemoryReader

/-!
# Files are extracted as they are

The octets in front of a boundary are the data of a file, whatever they are, and what follows the line of
the boundary is left to be read.  The search for the boundary keeps the octets behind a carriage return in
the buffer of the file, which is too short for a long boundary.
-/

namespace AdaWebServer
namespace Server
namespace Multipart

open Containers (Failure Table)
open Http2 (Octet Octets Text text)
open Resources.MemoryStream (Unread)
open Search (window supply)

variable {Socket : Type} {reader : Reader Socket} {system : Surroundings} {mode : MessageMode}

/-! ## Readers -/

/-- What is left to be read of octets that are appended to the body: the octets, where the body is what is
read. -/
def echoed (echo : Bool) (octets : Octets) : Octets := if echo then octets else []

/-- A reader delivers the octets that are left one after another.  A relation tells which body a request
holds and which octets are left. -/
structure Supplies (reader : Reader Socket) (system : Surroundings) (echo : Bool)
    (Holds : Octets → Octets → Request Socket → Prop) : Prop where
  read : ∀ {body left : Octets} {request : Request Socket} {count : Nat}, Holds body left request →
    0 < count → count ≤ left.length → ∃ next, reader.read count request = .ok (left.take count, next) ∧
      Holds body (left.drop count) next ∧ next.files = request.files ∧
      next.attachments = request.attachments
  append : ∀ {body left : Octets} {request : Request Socket} (octets : Octets) (trim : Bool),
    Holds body left request → left ≠ [] →
      Holds (body ++ octets) (left ++ echoed echo octets) (request.appendBody system octets trim)
  keep : ∀ {body left : Octets} {request : Request Socket} (files : List (Text × Octets))
    (attachments : List Received), Holds body left request →
      Holds body left { request with files, attachments }
  timeout : ∀ {body left : Octets} {request : Request Socket}, Holds body left request →
    reader.checkDataTimeout request = .ok request

theorem memory_supplies (system : Surroundings) :
    Supplies (memoryReader system) system true
      (fun body left request => Unread request.binaryData body left) where
  read holds positive _ := by
    obtain ⟨stream, read_eq, left⟩ := readMemory_eq holds positive
    exact ⟨_, read_eq, left, rfl, rfl⟩
  append octets trim holds something :=
    holds.append system.firstBlockLength system.nextBlockLength octets trim something
  keep _ _ holds := holds
  timeout _ := rfl

/-! ## The data of a file -/

/-- What is behind the boundary in its line, and the end of the line. -/
def terminator (ended : Bool) : Octets := if ended then [45, 45, 13, 10] else [13, 10]

/-- The data can be written: to the body, or to a file. -/
def Writable (system : Surroundings) (mode : MessageMode) (content : Octets) : Prop :=
  mode = .rootAttachment ∨ system.creatable = true ∧ content.length ≤ system.room

/-- The octets that go to the body. -/
def toBody (mode : MessageMode) (octets : Octets) : Octets :=
  if mode = .rootAttachment then octets else []

/-- The content has been written to its target, and what is left has been left. -/
structure Extracted (Holds : Octets → Octets → Request Socket → Prop) (echo : Bool)
    (mode : MessageMode) (serverFilename filename : Text) (headers : Table)
    (request : Request Socket) (body rest content : Octets) (next : Request Socket) : Prop where
  holds : Holds (body ++ toBody mode content) (rest ++ echoed echo (toBody mode content)) next
  files : next.files = request.files ++
    if mode = .rootAttachment then [] else [(serverFilename, content)]
  attachments : next.attachments = request.attachments ++
    if mode = .attachment then
      [{ filename := serverFilename, name := filename, contentId := [], headers }]
    else []

/-- A boundary in front of which every content is extracted, whatever it is read from: the content is
written, the line of the boundary is read, and it is reported whether it is the last one. -/
def Extracts (startBoundary : Text) : Prop :=
  ∀ {Socket : Type} {reader : Reader Socket} {system : Surroundings} {echo : Bool}
    {Holds : Octets → Octets → Request Socket → Prop}, Supplies reader system echo Holds →
    ∀ {mode : MessageMode} (serverFilename filename : Text) (headers : Table)
      {request : Request Socket} {body content rest : Octets} {ended : Bool} {times : Nat},
      Writable system mode content → ¬signature startBoundary <:+: content →
      Holds body (content ++ (signature startBoundary ++ (terminator ended ++ rest))) request →
      content.length < times →
      ∃ next, getFileData reader system times mode serverFilename filename headers startBoundary
          request = .ok (ended, next) ∧
        Extracted Holds echo mode serverFilename filename headers request body rest content next

/-! ## Short boundaries -/

/-- The octets that have been read and written. -/
structure DataAhead (Holds : Octets → Octets → Request Socket → Prop) (echo : Bool)
    (system : Surroundings) (mode : MessageMode) (request : Request Socket) (body octets : Octets)
    (i k : Nat) (transfer : Transfer Socket) : Prop where
  holds : Holds (body ++ toBody mode (octets.take k))
    (octets.drop i ++ echoed echo (toBody mode (octets.take k))) transfer.request
  files : transfer.request.files = request.files
  attachments : transfer.request.attachments = request.attachments
  file : transfer.error = .noError → mode ≠ .rootAttachment → transfer.file = octets.take k
  name : transfer.error = .nameError → mode ≠ .rootAttachment ∧ system.creatable = false
  full : transfer.error = .deviceError → mode ≠ .rootAttachment ∧ system.room < k

theorem echoed_append (echo : Bool) (first second : Octets) :
    echoed echo (first ++ second) = echoed echo first ++ echoed echo second := by
  cases echo <;> rfl

section Data

variable {echo : Bool} {Holds : Octets → Octets → Request Socket → Prop} {request : Request Socket}
  {body octets : Octets}

theorem window_take (octets : Octets) (last : Octet) {j k : Nat} (written_le : k ≤ j)
    (read_le : j ≤ octets.length) :
    octets.take k ++ window (supply octets last) k (j - k) = octets.take j := by
  rw [Search.window_items octets last (by omega), ← List.take_append_drop k (octets.take j),
    List.take_take, Nat.min_eq_left written_le, List.drop_take]

/-- What is read goes to the target, as long as the terminator is left. -/
theorem dataSource (supplies : Supplies reader system echo Holds) :
    Source reader system mode (supply octets system.memory) (fun i => i + 2 ≤ octets.length)
      (DataAhead Holds echo system mode request body octets) where
  read {i k transfer} ahead within := by
    have inside : i < octets.length := by omega
    obtain ⟨next, read_eq, holds, files, attachments⟩ := supplies.read ahead.holds Nat.one_pos
      (by rw [List.length_append, List.length_drop]; omega)
    have dropped := List.getElem_cons_drop inside
    rw [← dropped, List.cons_append] at read_eq holds
    refine ⟨{ transfer with data := octets[i], request := next }, ?_, ?_, rfl, rfl, ?_⟩
    · rw [Transfer.readData, read_eq]
      rfl
    · exact (Search.supply_within _ inside).symm
    · exact ⟨holds, files.trans ahead.files, attachments.trans ahead.attachments, ahead.file,
        ahead.name, ahead.full⟩
  rebuffer ahead _ :=
    ⟨ahead.holds, ahead.files, ahead.attachments, ahead.file, ahead.name, ahead.full⟩
  write {i j k transfer} ahead within sound written_le read_le trim := by
    have joined := window_take octets system.memory written_le (by omega : j ≤ octets.length)
    rw [Transfer.write, if_neg (not_not.2 sound)]
    by_cases root : mode = .rootAttachment
    · rw [if_pos root]
      have something : octets.drop i ++ echoed echo (toBody mode (octets.take k)) ≠ [] := by
        refine List.append_ne_nil_of_left_ne_nil ?_ _
        rw [ne_eq, List.drop_eq_nil_iff]
        omega
      have appended := supplies.append (window (supply octets system.memory) k (j - k)) trim
        ahead.holds something
      have toBody_eq : ∀ octets, toBody mode octets = octets := fun _ => if_pos root
      rw [toBody_eq, List.append_assoc, List.append_assoc, ← echoed_append, joined] at appended
      refine ⟨?_, ahead.files, ahead.attachments, fun _ file => absurd root file,
        fun failed => absurd (failed.symm.trans sound) (by rintro ⟨⟩),
        fun failed => absurd (failed.symm.trans sound) (by rintro ⟨⟩)⟩
      rw [toBody_eq]
      exact appended
    · rw [if_neg root]
      have toBody_eq : ∀ octets, toBody mode octets = [] := fun _ => if_neg root
      have file_eq := ahead.file sound root
      have length_eq : transfer.file.length + (window (supply octets system.memory) k (j - k)).length =
          j := by
        rw [file_eq, List.length_take_of_le (by omega), Search.length_window]
        omega
      have holds := ahead.holds
      rw [toBody_eq, ← toBody_eq (octets.take j)] at holds
      rw [length_eq]
      by_cases room : j ≤ system.room
      · rw [if_pos room, file_eq, joined]
        exact ⟨holds, ahead.files, ahead.attachments, fun _ _ => rfl,
          fun failed => absurd (failed.symm.trans sound) (by rintro ⟨⟩),
          fun failed => absurd (failed.symm.trans sound) (by rintro ⟨⟩)⟩
      · rw [if_neg room]
        exact ⟨holds, ahead.files, ahead.attachments, (by rintro ⟨⟩), (by rintro ⟨⟩),
          fun _ => ⟨root, not_le.1 room⟩⟩
  timeout ahead := supplies.timeout ahead.holds
  earlier within := by omega

/-- The first signature is the one behind the content. -/
theorem isFirst_signature {startBoundary : Text} (plain : 13 ∉ startBoundary) {content : Octets}
    (absent : ¬signature startBoundary <:+: content) (behind : Octets) (last : Octet) :
    IsFirst (supply (content ++ (signature startBoundary ++ behind)) last) (signature startBoundary)
      (some content.length) := by
  have signed := isSignature plain
  have there : Occurs (supply (content ++ (signature startBoundary ++ behind)) last)
      (signature startBoundary) content.length := by
    rw [Occurs, Search.window_items _ _ (by simp only [List.length_append]; omega), List.drop_left,
      List.take_left]
  refine ⟨there, fun earlier before occurs => ?_⟩
  by_cases within : earlier + (signature startBoundary).length ≤ content.length
  · refine absent ?_
    rw [Occurs, Search.window_items _ _ (by rw [List.length_append]; omega),
      List.drop_append_of_le_length before.le,
      List.take_append_of_le_length (by rw [List.length_drop]; omega)] at occurs
    rw [← occurs]
    exact (List.take_prefix _ _).isInfix.trans (List.drop_suffix _ _).isInfix
  · exact signed.not_occurs before (by omega) (there.return_eq signed) occurs

/-- The terminator is read, and tells whether it is the last one. -/
theorem Supplies.terminator (supplies : Supplies reader system echo Holds) {ended : Bool}
    {left : Octets} (holds : Holds body (terminator ended ++ left) request) :
    ∃ next, readTerminator reader system request = .ok (ended, next) ∧ Holds body left next ∧
      next.files = request.files ∧ next.attachments = request.attachments := by
  cases ended with
  | false =>
      have long : 2 ≤ (Multipart.terminator false ++ left).length := Nat.le_add_left 2 left.length
      obtain ⟨next, read_eq, next_holds, files, attachments⟩ := supplies.read holds Nat.two_pos long
      refine ⟨next, ?_, next_holds, files, attachments⟩
      rw [readTerminator, read_eq]
      rfl
  | true =>
      have long : 2 ≤ (Multipart.terminator true ++ left).length := by
        show 2 ≤ left.length + 1 + 1 + 1 + 1
        omega
      obtain ⟨middle, read_eq, middle_holds, files, attachments⟩ :=
        supplies.read holds Nat.two_pos long
      have line : (Multipart.terminator true ++ left).drop 2 = [13, 10] ++ left := rfl
      rw [line] at middle_holds
      obtain ⟨next, line_eq, next_holds, files', attachments'⟩ :=
        supplies.read middle_holds Nat.two_pos (Nat.le_add_left 2 left.length)
      refine ⟨next, ?_, next_holds, files'.trans files, attachments'.trans attachments⟩
      rw [readTerminator, read_eq]
      show (reader.read 2 middle >>= fun skipped => .ok (true, skipped.2)) = _
      rw [line_eq]
      rfl

/-- What is written at the end is what has been read. -/
theorem DataAhead.close {content behind : Octets} {i k : Nat} {transfer : Transfer Socket}
    (supplies : Supplies reader system echo Holds)
    (ahead : DataAhead Holds echo system mode request body (content ++ behind) i k transfer)
    (written_le : k ≤ content.length) (complete : transfer.error = .noError → k = content.length)
    (writable : Writable system mode content) (serverFilename filename : Text) (headers : Table) :
    transfer.error = .noError ∧
      Extracted Holds echo mode serverFilename filename headers request body
        ((content ++ behind).drop i) content
        (transfer.close mode serverFilename filename headers) := by
  have sound : transfer.error = .noError := by
    cases error_eq : transfer.error with
    | noError => rfl
    | nameError =>
        obtain ⟨file, missing⟩ := ahead.name error_eq
        have creatable := (writable.resolve_left file).1
        rw [missing] at creatable
        cases creatable
    | deviceError =>
        obtain ⟨file, full⟩ := ahead.full error_eq
        have room := (writable.resolve_left file).2
        omega
  obtain rfl := complete sound
  have taken : (content ++ behind).take content.length = content := List.take_left
  have holds := ahead.holds
  have file_eq := ahead.file sound
  rw [taken] at holds file_eq
  refine ⟨sound, ?_⟩
  cases mode with
  | rootAttachment =>
      have closed : transfer.close .rootAttachment serverFilename filename headers =
          transfer.request := by
        simp [Transfer.close]
      rw [closed]
      exact ⟨holds, ahead.files.trans (List.append_nil _).symm,
        ahead.attachments.trans (List.append_nil _).symm⟩
  | attachment =>
      have closed : transfer.close .attachment serverFilename filename headers =
          { transfer.request with
            files := transfer.request.files ++ [(serverFilename, transfer.file)]
            attachments := transfer.request.attachments ++
              [{ filename := serverFilename, name := filename, contentId := [], headers }] } := by
        simp [Transfer.close, sound]
      rw [closed, file_eq (by decide), ahead.files, ahead.attachments]
      exact ⟨supplies.keep _ _ holds, rfl, rfl⟩
  | fileUpload =>
      have closed : transfer.close .fileUpload serverFilename filename headers =
          { transfer.request with
            files := transfer.request.files ++ [(serverFilename, transfer.file)] } := by
        simp [Transfer.close, sound]
      rw [closed, file_eq (by decide), ahead.files]
      exact ⟨supplies.keep _ _ holds, rfl, ahead.attachments.trans (List.append_nil _).symm⟩

end Data

/-- At the start nothing has been read or written. -/
theorem dataAhead_start {echo : Bool} {Holds : Octets → Octets → Request Socket → Prop}
    {request : Request Socket} {body octets : Octets} (holds : Holds body octets request) :
    DataAhead Holds echo system mode request body octets 0 0
      (Transfer.start system mode request) where
  holds := by
    have nothing : toBody mode (octets.take 0) = [] := by
      rw [List.take_zero, toBody, ite_self]
    have silent : echoed echo [] = [] := by rw [echoed, ite_self]
    rw [nothing, silent, List.append_nil, List.append_nil]
    exact holds
  files := rfl
  attachments := rfl
  file _ _ := rfl
  name failed := by
    by_contra possible
    rw [Transfer.start, if_neg fun both => possible ⟨both.1, Bool.eq_false_iff.mpr both.2⟩] at failed
    cases failed
  full failed := by
    rw [Transfer.start] at failed
    split_ifs at failed

theorem extracts_of_short {startBoundary : Text} (plain : 13 ∉ startBoundary)
    (short : startBoundary.length + 2 ≤ bufferLast) : Extracts startBoundary := by
  intro Socket reader system echo Holds supplies mode serverFilename filename headers request body
    content rest ended times writable absent holds enough
  rw [← length_signature] at short
  have first := isFirst_signature plain absent (terminator ended ++ rest) system.memory
  generalize behind_eq : signature startBoundary ++ (terminator ended ++ rest) = behind at holds first
  have source := @dataSource Socket reader system mode echo Holds request body (content ++ behind)
    supplies
  have stored : Stored (DataAhead Holds echo system mode request body (content ++ behind))
      (supply (content ++ behind) system.memory) ((signature startBoundary).length ≤ bufferLast) 0 0 0
      (Transfer.start system mode request) :=
    ⟨dataAhead_start holds, le_rfl, le_rfl, fun _ => rfl, fun _ => Nat.succ_pos 4095⟩
  have long : 1 < (signature startBoundary).length := by
    rw [length_signature]
    omega
  have two : 2 ≤ (terminator ended ++ rest).length := by
    rw [List.length_append]
    cases ended <;> exact Nat.le_add_right_of_le (by decide)
  have length_eq : (content ++ behind).length = content.length + (signature startBoundary).length +
      (terminator ended ++ rest).length := by
    rw [← behind_eq, List.length_append, List.length_append, Nat.add_assoc]
  have found := @Stored.readFile Socket reader system mode _ _ _ (fun _ => False) _ _ (some _) times
    source (isSignature plain) long (.inl short) first (.inl rfl)
    (fun i within => by have := within _ rfl; omega) stored (.inl enough)
  obtain ⟨_, _, impossible⟩ | ⟨transfer, read_eq, x, there, _, k, found_stored⟩ := found
  · exact impossible.elim
  obtain rfl : content.length = x := Option.some.inj there
  obtain ⟨k', written_le, ahead, complete⟩ := found_stored.finish source (by omega)
  obtain ⟨sound, extracted⟩ := ahead.close supplies written_le complete writable serverFilename filename
    headers
  have dropped : (content ++ behind).drop (content.length + (signature startBoundary).length) =
      terminator ended ++ rest := by
    rw [← List.drop_drop, List.drop_left, ← behind_eq, List.drop_left]
  rw [dropped] at extracted
  have closed_holds := extracted.holds
  rw [List.append_assoc] at closed_holds
  obtain ⟨next, ended_eq, next_holds, files, attachments⟩ := supplies.terminator closed_holds
  refine ⟨next, ?_, next_holds, files.trans extracted.files,
    attachments.trans extracted.attachments⟩
  rw [getFileData, read_eq, Http2.ok_bind]
  dsimp only
  rw [ended_eq, Http2.ok_bind]
  dsimp only
  rw [sound]
  rfl

/-! ## Long boundaries -/

section Long

variable {e : Nat → Octet} {Within : Nat → Prop} {Ahead : Nat → Nat → Transfer Socket → Prop}
  {sought : Octets} {transfer : Transfer Socket} {Fits : Prop}

/-- A candidate without a second carriage return that is not the signature is written but for its last
octet. -/
theorem Stored.checkEofLoop_eq (source : Source reader system mode e Within Ahead) {m missing j k : Nat}
    (length_eq : m + (missing + 1) = sought.length)
    (no_return : ∀ y, m ≤ y → y < sought.length → e y ≠ 13) (other : ¬Occurs e sought 0)
    (stored : Stored Ahead e Fits m j k transfer) (within : ∀ i ≤ sought.length, Within i) :
    ∃ next : Transfer Socket, transfer.checkEofLoop reader system mode sought (missing + 1) (window e 0 m) =
        (next.writeData system mode (window e 0 (sought.length - 1)) >>= fun written =>
          .ok (false, written)) ∧
      next.data = e (sought.length - 1) ∧ next.buffer = transfer.buffer ∧
      next.error = transfer.error := by
  induction missing generalizing m transfer with
  | zero =>
      obtain ⟨next, read_eq, data_eq, buffer_eq, error_eq, _⟩ :=
        source.read stored.ahead (within _ (by omega))
      have other : window e 0 sought.length ≠ sought := other
      have last : m = sought.length - 1 := by omega
      have whole : window e 0 m ++ [e m] = window e 0 sought.length := by
        rw [← length_eq, ← Search.window_concat, Nat.zero_add]
      refine ⟨next, ?_, by rw [data_eq, last], buffer_eq, error_eq⟩
      rw [Transfer.checkEofLoop, read_eq, Http2.ok_bind, data_eq,
        if_neg (no_return m le_rfl (by omega)), if_pos rfl, whole,
        if_neg other, last]
      rfl
  | succ missing ih =>
      obtain ⟨middle, read_eq, data_eq, middle_stored⟩ := stored.read source (within _ (by omega))
      obtain ⟨_, read_eq', _, buffer_eq, error_eq, _⟩ := source.read stored.ahead (within _ (by omega))
      obtain rfl := Except.ok.inj (read_eq.symm.trans read_eq')
      have joined : window e 0 m ++ [e m] = window e 0 (m + 1) := by
        rw [← Search.window_concat, Nat.zero_add]
      obtain ⟨next, loop_eq, last_eq, same_buffer, same_error⟩ := ih (by omega)
        (fun y behind before => no_return y (by omega) before) middle_stored
      refine ⟨next, ?_, last_eq, same_buffer.trans buffer_eq, same_error.trans error_eq⟩
      rw [Transfer.checkEofLoop, read_eq, Http2.ok_bind, data_eq,
        if_neg (no_return m le_rfl (by omega)), if_neg (Nat.succ_ne_zero missing), joined]
      exact loop_eq

/-- A candidate that does not fit into the buffer, or leaves no room for the octet behind it. -/
theorem readTurn_fails {first next : Transfer Socket} {candidate : Octets} {times : Nat}
    (read_eq : transfer.readData reader = .ok first) (ret : first.data = 13)
    (eof_eq : first.checkEof reader system mode sought =
      (next.writeData system mode candidate >>= fun written => .ok (false, written)))
    (sound : next.error = .noError) (empty : next.buffer = [])
    (long : bufferLast ≤ candidate.length) (other : next.data ≠ 13) :
    transfer.readTurn reader system mode sought (times + 2) = checkFailed := by
  have flushes : bufferLast < next.buffer.length + 1 + candidate.length := by
    rw [empty, List.length_nil]
    omega
  have flushed_buffer : (next.flush system mode).buffer = [] := rfl
  have flushed_data : (next.flush system mode).data = next.data := write_data _ _ _
  have write_eq : next.writeData system mode candidate =
      if bufferLast < candidate.length then checkFailed
      else .ok { next.flush system mode with buffer := candidate } := by
    rw [Transfer.writeData, if_neg (not_not.2 sound)]
    dsimp only
    rw [if_pos flushes, flushed_buffer, List.length_nil, Nat.zero_add, List.nil_append]
  rw [Transfer.readTurn, read_eq, Http2.ok_bind, turns, Transfer.returnTurn, if_pos ret, eof_eq,
    write_eq]
  by_cases longer : bufferLast < candidate.length
  · rw [if_pos longer]
    rfl
  · have full : candidate.length = bufferLast := by omega
    have other : { next.flush system mode with buffer := candidate }.data ≠ 13 := by
      rwa [← flushed_data] at other
    have leaves : turns (Transfer.returnTurn reader system mode sought) (times + 1)
        { next.flush system mode with buffer := candidate } =
          .ok (false, { next.flush system mode with buffer := candidate }) := by
      rw [turns, Transfer.returnTurn, if_neg other]
      rfl
    have fails : Transfer.store reader system mode
        { next.flush system mode with buffer := candidate } = checkFailed := by
      rw [Transfer.store, if_pos full.ge]
    rw [if_neg longer]
    show (turns (Transfer.returnTurn reader system mode sought) (times + 1)
      { next.flush system mode with buffer := candidate } >>= _) = _
    rw [leaves]
    show (Transfer.store reader system mode
      { next.flush system mode with buffer := candidate } >>= _) = _
    rw [fails]
    rfl

end Long

/-- A content that a long signature cannot be told from in time: a carriage return and as many other
octets as the signature has. -/
def longContent (startBoundary : Text) : Octets :=
  13 :: List.replicate (signature startBoundary).length 97

theorem not_extracts_of_long {startBoundary : Text}
    (long : bufferLast < startBoundary.length + 2) : ¬Extracts startBoundary := by
  intro extracts
  rw [← length_signature] at long
  let system : Surroundings :=
    ⟨[], [], 0, 0, 1, 1, 0, id, some, true, 0, 0⟩
  let octets := longContent startBoundary ++
    (signature startBoundary ++ (terminator true ++ []))
  have octets_ne : octets ≠ [] := List.cons_ne_nil _ _
  let request : Request Unit :=
    ⟨(), .append 1 1 octets false .create, Table.headersReset, [], [], [], 0⟩
  have holds : Unread request.binaryData octets octets := Unread.create_append 1 1 octets false octets_ne
  have absent : ¬signature startBoundary <:+: longContent startBoundary := by
    intro occurs
    have feed : (10 : Octet) ∈ longContent startBoundary :=
      occurs.subset (List.mem_cons_of_mem _ List.mem_cons_self)
    rw [longContent, List.mem_cons, List.mem_replicate] at feed
    simp at feed
  obtain ⟨next, data_eq, -⟩ := @extracts Unit (memoryReader system) system true
    (fun body left request => Unread request.binaryData body left) (memory_supplies system)
    .rootAttachment [] [] Table.headersReset request octets (longContent startBoundary) [] true
    ((signature startBoundary).length + 2) (.inl rfl) absent holds
    (by rw [longContent, List.length_cons, List.length_replicate]; omega)
  have source := @dataSource Unit (memoryReader system) system .rootAttachment true
    (fun body left request => Unread request.binaryData body left) request octets octets
    (memory_supplies system)
  have other_at : ∀ y, 1 ≤ y → y ≤ (signature startBoundary).length →
      supply octets system.memory y = 97 := by
    intro y behind before
    obtain ⟨index, rfl⟩ : ∃ index, y = index + 1 := ⟨y - 1, by omega⟩
    have inside : index < (List.replicate (signature startBoundary).length (97 : Octet)).length := by
      rw [List.length_replicate]
      omega
    show ((List.replicate _ 97 ++ _ : Octets).getD index _) = 97
    rw [List.getD_append _ _ _ _ inside, List.getD_eq_getElem _ _ inside, List.getElem_replicate]
  have room : (signature startBoundary).length + 2 ≤ octets.length := by
    have length_eq : octets.length = (longContent startBoundary).length +
        ((signature startBoundary).length + 4) := by
      show (longContent startBoundary ++ (signature startBoundary ++ [45, 45, 13, 10])).length = _
      rw [List.length_append, List.length_append]
      rfl
    rw [length_eq, longContent]
    exact Nat.le_add_left_of_le (Nat.add_le_add_left (by decide) _)
  have length_ge : 2 ≤ (signature startBoundary).length := Nat.le_of_lt (lt_trans (by decide) long)
  have ahead := @dataAhead_start Unit system .rootAttachment true
    (fun body left request => Unread request.binaryData body left) request octets octets holds
  obtain ⟨first, read_eq, first_data, first_buffer, first_error, first_ahead⟩ :=
    source.read ahead (by omega)
  have stored : Stored (DataAhead (fun body left request => Unread request.binaryData body left) true
      system .rootAttachment request octets octets) (supply octets system.memory) False 1 0 0 first :=
    ⟨first_ahead, le_rfl, Nat.zero_le 1, fun _ => first_buffer, nofun⟩
  have other : ¬Occurs (supply octets system.memory) (signature startBoundary) 0 := by
    intro occurs
    have second : (signature startBoundary)[1]? = some 97 := by
      rw [← occurs, Search.getElem?_window _ (by omega), other_at 1 le_rfl (by omega)]
    cases second
  have length_eq : 1 + ((signature startBoundary).length - 2 + 1) =
      (signature startBoundary).length := by omega
  obtain ⟨last, loop_eq, last_data, last_buffer, last_error⟩ :=
    stored.checkEofLoop_eq source length_eq
      (fun y behind before => by rw [other_at y behind before.le]; decide) other
      (fun i i_le => by omega)
  have eof_eq : first.checkEof (memoryReader system) system .rootAttachment (signature startBoundary) =
      (last.writeData system .rootAttachment (window (supply octets system.memory) 0
        ((signature startBoundary).length - 1)) >>= fun written => .ok (false, written)) := by
    have start : [13] = window (supply octets system.memory) 0 1 := rfl
    have missing : (signature startBoundary).length - 1 = (signature startBoundary).length - 2 + 1 := by
      omega
    rw [Transfer.checkEof, start, missing, loop_eq, missing]
  have turn_eq := @readTurn_fails Unit (memoryReader system) system .rootAttachment
    (signature startBoundary) _ first last _ (signature startBoundary).length read_eq first_data eof_eq
    (last_error.trans first_error) (last_buffer.trans first_buffer)
    (by rw [Search.length_window]; omega)
    (by rw [last_data, other_at _ (by omega) (by omega)]; decide)
  rw [getFileData, turns, turn_eq] at data_eq
  cases data_eq

/-- Every content is extracted exactly in front of the boundaries whose signature fits into the buffer. -/
theorem file_extracted_iff {startBoundary : Text} (plain : 13 ∉ startBoundary) :
    Extracts startBoundary ↔ startBoundary.length + 2 ≤ bufferLast := by
  refine ⟨fun extracts => ?_, extracts_of_short plain⟩
  by_contra long
  exact not_extracts_of_long (not_le.1 long) extracts

/-- A boundary of a browser. -/
theorem file_extracted_browser : Extracts (text "------WebKitFormBoundaryAaB03x") :=
  (file_extracted_iff (by decide)).mpr (by decide)

/-- A boundary of 4095 octets with the two hyphens in front. -/
theorem file_not_extracted : ¬Extracts (45 :: 45 :: List.replicate 4093 97) :=
  not_extracts_of_long (by rw [List.length_cons, List.length_cons, List.length_replicate]; decide)

end Multipart
end Server
end AdaWebServer

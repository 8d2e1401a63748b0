import AdaWebServer.Http2.SendFile
import AdaWebServer.Net.Arrivals
import AdaWebServer.Status.ChunkedGrammar

/-!
# The body of a request

`Read_Body` stores the body of a request as it arrives, either as many octets as the request has announced
or chunks up to one of size zero.

The octets of the memory stream that holds the body are given as a whole.
-/

namespace AdaWebServer
namespace Status

open Client (Chunk Framing SizeLine Hexadecimal hexShift)
open Http2 (Octet Octets Text Exn Positive text toLower digitValue scanDigits scanNumeral scanLiteral
  scanExponent integerValue)
open Http2.Framing (offsetValue)
open Net (Buffered Buffering crlf lf cr stripLine)

/-- `Status.Data`, as far as `Read_Body` uses it. -/
structure Data where
  /-- The value of the `Transfer-Encoding` header. -/
  transferEncoding : Text
  contentLength : Nat
  /-- What the memory stream holds, if there is one. -/
  binaryData : Option Octets

/-- The socket, and the request. -/
structure Receiving where
  socket : Buffered
  data : Data

/-- A part of `Read_Body`. -/
abbrev Reading := Receiving → EStateM.Result Exn Receiving Unit

namespace Receiving

/-- `D.Binary_Data.Append`. -/
def append (self : Receiving) (socket : Buffered) (octets : Octets) : Receiving :=
  { self with
    socket
    data := { self.data with binaryData := self.data.binaryData.map (· ++ octets) } }

/-- `Read_Chunk`, which fills its buffer at most so many times. -/
def readChunk : Nat → Nat → Reading
  | 0, _, self => .error .storageError self
  | times + 1, rest, self =>
      if 4096 < rest then
        match self.socket.readFull 4096 with
        | .ok buffer socket => readChunk times (rest - 4096) (self.append socket buffer)
        | .error exn socket => .error exn { self with socket }
      else
        match self.socket.readFull rest with
        | .ok buffer socket => .ok () (self.append socket buffer)
        | .error exn socket => .error exn { self with socket }

/-- `Stream_Element_Offset'Value` of a line between `16#` and `#`. -/
def chunkSize (line : Text) : Except Exn Int := offsetValue (text "16#" ++ line ++ text "#")

/-- The loop `Read_Chunks`, for at most so many chunks. -/
def readChunks (inputLimit : Positive) : Nat → Reading
  | 0, self => .error .storageError self
  | times + 1, self =>
      match self.socket.getLine inputLimit with
      | .error exn socket => .error exn { self with socket }
      | .ok line socket =>
          match chunkSize line with
          | .error exn => .error exn { self with socket }
          | .ok cSize =>
              if cSize = 0 then
                match socket.readFull 2 with
                | .ok _ socket => .ok () { self with socket }
                | .error exn socket => .error exn { self with socket }
              else
                match readChunk (cSize.toNat + 1) cSize.toNat { self with socket } with
                | .error exn after => .error exn after
                | .ok () after =>
                    match after.socket.readFull 2 with
                    | .ok _ socket => readChunks inputLimit times { after with socket }
                    | .error exn socket => .error exn { after with socket }

/-- `Read_Whole_Body`. -/
def readWholeBody (inputLimit : Positive) : Reading := fun self =>
  if self.data.transferEncoding = text "chunked" then
    readChunks inputLimit (self.socket.unread.length + 1) self
  else readChunk (self.data.contentLength + 1) self.data.contentLength self

/-- `Read_Body`. -/
def readBody (inputLimit : Positive) (boundary : Text) : Reading := fun self =>
  let self := { self with data := { self.data with binaryData := some (self.data.binaryData.getD []) } }
  if boundary = [] then readWholeBody inputLimit self
  else
    match self.socket.readUntil inputLimit boundary true with
    | .error exn socket => .error exn { self with socket }
    | .ok content socket =>
        if boundary.length + 2 < content.length then
          .ok () (self.append socket (content.take (content.length - boundary.length - 2)))
        else .ok () { self with socket }

/-! ## Sizes -/

private theorem digitValue_lt {c : Octet} {digit : Nat} (value : digitValue c = some digit) :
    digit < 16 := by
  rw [digitValue] at value
  split_ifs at value with decimal upper lower
  · cases value
    have := UInt8.le_iff_toNat_le.1 decimal.2
    change c.toNat ≤ 57 at this
    omega
  · cases value
    have := UInt8.le_iff_toNat_le.1 upper.2
    change c.toNat ≤ 70 at this
    omega
  · cases value
    have := UInt8.le_iff_toNat_le.1 lower.2
    change c.toNat ≤ 102 at this
    omega

private theorem digitValue_filter (c : Octet) : (digitValue c).filter (· < 16) = digitValue c := by
  cases value : digitValue c with
  | none => rfl
  | some digit => exact if_pos (decide_eq_true (digitValue_lt value))

/-- Hexadecimal digits are scanned up to another character. -/
private theorem scanDigits_hexadecimal {digits : Text} (hexadecimal : Hexadecimal digits) {c : Octet}
    (no_digit : digitValue c = none) (no_underline : c ≠ 95) (rest : Text) (start : Nat) :
    scanDigits 16 start (digits ++ c :: rest) = (digits.foldl hexShift start, c :: rest) := by
  induction digits generalizing start with
  | nil =>
      rw [List.nil_append, scanDigits, no_digit]
      · rfl
      · exact fun _ _ underline _ => no_underline underline
  | cons digit digits ih =>
      rw [Hexadecimal, List.forall_mem_cons] at hexadecimal
      obtain ⟨value, value_eq⟩ := Option.isSome_iff_exists.1 hexadecimal.1
      have other : digit ≠ 95 := by
        rintro rfl
        cases value_eq
      rw [List.cons_append, scanDigits, digitValue_filter, value_eq, List.foldl_cons, hexShift, value_eq]
      · exact ih hexadecimal.2 _
      · exact fun _ _ underline _ => other underline

/-- The literal of a line is a based one, without a sign. -/
private theorem integerValue_based (line : Text) :
    integerValue (text "16#" ++ line ++ text "#") =
      ((scanNumeral 16 (line ++ [35])).bind fun (mantissa, rest) =>
        if rest.head? = some 35 then scanExponent 16 mantissa rest.tail else none).map
          (Nat.cast : Nat → Int) := by
  have literal_eq : text "16#" ++ line ++ text "#" = 49 :: 54 :: 35 :: (line ++ [35]) := rfl
  have trimmed : (((49 :: 54 :: 35 :: (line ++ [35])).dropWhile (· = (32 : Octet))).reverse.dropWhile
      (· = 32)).reverse = 49 :: 54 :: 35 :: (line ++ [35]) := by
    rw [List.dropWhile_cons_of_neg (by decide)]
    simp only [List.reverse_cons, List.reverse_append, List.reverse_nil, List.nil_append,
      List.cons_append]
    rw [List.dropWhile_cons_of_neg (by decide)]
    simp
  have scanned : scanLiteral (49 :: 54 :: 35 :: (line ++ [35])) =
      (scanNumeral 16 (line ++ [35])).bind fun (mantissa, rest) =>
        if rest.head? = some 35 then scanExponent 16 mantissa rest.tail else none := rfl
  rw [literal_eq, integerValue, trimmed, ← scanned]
  change Option.map (fun number : Int => number)
    ((scanLiteral (49 :: 54 :: 35 :: (line ++ [35]))).bind fun number => some (number : Int)) = _
  cases scanLiteral (49 :: 54 :: 35 :: (line ++ [35])) <;> rfl

theorem chunkSize_nonneg {line : Text} {cSize : Int} (read : chunkSize line = .ok cSize) : 0 ≤ cSize := by
  rw [chunkSize, offsetValue, integerValue_based] at read
  cases number : (scanNumeral 16 (line ++ [35])).bind fun (mantissa, rest) =>
      if rest.head? = some 35 then scanExponent 16 mantissa rest.tail else none with
  | none =>
      rw [number] at read
      cases read
  | some value =>
      rw [number, Option.map_some] at read
      dsimp only at read
      split_ifs at read
      cases read
      exact Int.natCast_nonneg value

theorem chunkSize_text_iff {size : SizeLine} {cSize : Int} :
    chunkSize size.text = .ok cSize ↔
      size.extension = [] ∧ cSize = size.value ∧ size.value < 2 ^ 63 := by
  obtain ⟨digit, digits, digits_eq⟩ := List.exists_cons_of_ne_nil size.digits_ne
  have hexadecimal := size.hexadecimal
  rw [digits_eq, Hexadecimal, List.forall_mem_cons] at hexadecimal
  obtain ⟨first, first_eq⟩ := Option.isSome_iff_exists.1 hexadecimal.1
  have scanned : ∀ (c : Octet) (rest : Text), digitValue c = none → c ≠ 95 →
      scanNumeral 16 (size.digits ++ c :: rest) = some (size.value, c :: rest) := by
    intro c rest no_digit no_underline
    rw [digits_eq, List.cons_append, scanNumeral, digitValue_filter, first_eq, Option.map_some,
      scanDigits_hexadecimal hexadecimal.2 no_digit no_underline, SizeLine.value, digits_eq,
      Client.hexNumber, List.foldl_cons, hexShift, first_eq, Nat.zero_mul, Nat.zero_add]
    rfl
  have number : integerValue (text "16#" ++ size.text ++ text "#") =
      if size.extension = [] then some (size.value : Int) else none := by
    rw [integerValue_based, SizeLine.text]
    cases extension_eq : size.extension with
    | nil =>
        rw [List.append_nil, scanned 35 [] (by decide) (by decide)]
        rfl
    | cons start later =>
        obtain rfl := size.extension_start start (by rw [extension_eq]; rfl)
        rw [List.append_assoc, List.cons_append, scanned 59 _ (by decide) (by decide)]
        rfl
  rw [chunkSize, offsetValue, number]
  by_cases bare : size.extension = []
  · rw [if_pos bare]
    dsimp only
    split_ifs with in_range
    · simp only [Except.ok.injEq, bare, true_and]
      constructor
      · rintro rfl
        exact ⟨rfl, by omega⟩
      · exact fun both => both.1.symm
    · refine iff_of_false (by rintro ⟨⟩) fun all => in_range ?_
      omega
  · rw [if_neg bare]
    exact iff_of_false (by rintro ⟨⟩) fun all => bare all.1

/-! ## What is accepted -/

/-- What the loop accepts: lines up to a line feed from which a size is read, data of these sizes with any
two octets behind them, and two octets behind a size of zero. -/
inductive Accepts (lineLimit : Nat) : Octets → Octets → Octets → Prop
  | last {line pair rest : Octets} (no_feed : lf ∉ line) (fits : line.length < lineLimit)
      (beyond : chunkSize (stripLine (line ++ [lf])) = .ok 0) (two : pair.length = 2) :
      Accepts lineLimit (line ++ lf :: (pair ++ rest)) [] rest
  | chunk {line data pair later payload rest : Octets} (no_feed : lf ∉ line)
      (fits : line.length < lineLimit)
      (size : chunkSize (stripLine (line ++ [lf])) = .ok (data.length : Int)) (some_data : data ≠ [])
      (two : pair.length = 2) (further : Accepts lineLimit later payload rest) :
      Accepts lineLimit (line ++ lf :: (data ++ (pair ++ later))) (data ++ payload) rest

variable {self after : Receiving} {inputLimit : Positive} {payload rest : Octets}

theorem append_append (socket last : Buffered) (first second : Octets) :
    (self.append socket first).append last second = self.append last (first ++ second) := by
  obtain ⟨_, _, _, body⟩ := self
  cases body with
  | none => rfl
  | some body =>
      exact congrArg (fun body => Receiving.mk last ⟨_, _, some body⟩) (List.append_assoc body first second)

theorem append_nil (socket : Buffered) : self.append socket [] = { self with socket } := by
  obtain ⟨_, _, _, body⟩ := self
  cases body with
  | none => rfl
  | some body => exact congrArg (fun body => Receiving.mk socket ⟨_, _, some body⟩) (List.append_nil body)

/-- A chunk is stored if the socket gives its data. -/
theorem readChunk_supplied {At : Octets → Buffered → Prop}
    (reads : ∀ {data rest : Octets} {socket : Buffered}, data ≠ [] → At (data ++ rest) socket →
      ∃ next, socket.readFull data.length = .ok data next ∧ At rest next)
    {data : Octets} (some_data : data ≠ []) {times : Nat} (enough : data.length < times)
    (at_data : At (data ++ rest) self.socket) :
    ∃ socket, readChunk times data.length self = .ok () (self.append socket data) ∧ At rest socket := by
  induction times generalizing self data with
  | zero => exact absurd enough (Nat.not_lt_zero _)
  | succ times ih =>
      rw [readChunk]
      split_ifs with long
      · have front_length : (data.take 4096).length = 4096 := List.length_take_of_le long.le
        have back_length : (data.drop 4096).length = data.length - 4096 := List.length_drop
        have some_front : data.take 4096 ≠ [] := by
          rw [← List.length_pos_iff, front_length]
          decide
        have some_back : data.drop 4096 ≠ [] := by
          rw [← List.length_pos_iff, back_length]
          omega
        rw [← List.take_append_drop 4096 data, List.append_assoc] at at_data
        obtain ⟨socket, read_eq, at_back⟩ := reads some_front at_data
        rw [front_length] at read_eq
        rw [read_eq]
        dsimp only
        rw [← back_length]
        obtain ⟨last, stored, at_rest⟩ :=
          @ih (self.append socket (data.take 4096)) (data.drop 4096) some_back (by omega) at_back
        rw [stored, append_append, List.take_append_drop]
        exact ⟨last, rfl, at_rest⟩
      · obtain ⟨socket, read_eq, at_rest⟩ := reads some_data at_data
        rw [read_eq]
        exact ⟨socket, rfl, at_rest⟩

/-- What has been stored of a chunk has been taken from the socket. -/
theorem readChunk_took {times size : Nat} (done : readChunk times size self = .ok () after) :
    ∃ socket data, after = self.append socket data ∧ Buffered.Took data self.socket socket ∧
      data.length = size := by
  induction times generalizing self size with
  | zero => cases done
  | succ times ih =>
      rw [readChunk] at done
      split_ifs at done with long
      · cases read_eq : self.socket.readFull 4096 with
        | error exn socket =>
            rw [read_eq] at done
            cases done
        | ok front socket =>
            rw [read_eq] at done
            obtain ⟨front_taken, front_length⟩ := Buffered.readFull_took read_eq
            obtain ⟨last, back, rfl, back_taken, back_length⟩ := ih done
            refine ⟨last, front ++ back, append_append .., front_taken.trans back_taken, ?_⟩
            rw [List.length_append]
            omega
      · cases read_eq : self.socket.readFull size with
        | error exn socket =>
            rw [read_eq] at done
            cases done
        | ok data socket =>
            rw [read_eq] at done
            cases done
            obtain ⟨taken, data_length⟩ := Buffered.readFull_took read_eq
            exact ⟨socket, data, rfl, taken, data_length⟩

/-! ## The loop over the chunks -/

/-- The turn that reads the last size. -/
private theorem readChunks_last {line pair : Octets} {behind last : Buffered} (times : Nat)
    (line_eq : self.socket.getLine inputLimit = .ok line behind) (beyond : chunkSize line = .ok 0)
    (read_eq : behind.readFull 2 = .ok pair last) :
    readChunks inputLimit (times + 1) self = .ok () (self.append last []) := by
  rw [readChunks, line_eq]
  dsimp only
  rw [beyond]
  dsimp only
  rw [if_pos rfl, read_eq, append_nil]

/-- The turn that reads a chunk. -/
private theorem readChunks_chunk {line data pair : Octets} {behind middle last : Buffered} (times : Nat)
    (line_eq : self.socket.getLine inputLimit = .ok line behind)
    (size : chunkSize line = .ok (data.length : Int)) (some_data : data ≠ [])
    (stored : readChunk (data.length + 1) data.length { self with socket := behind } =
      .ok () (self.append middle data))
    (read_eq : middle.readFull 2 = .ok pair last) :
    readChunks inputLimit (times + 1) self = readChunks inputLimit times (self.append last data) := by
  have positive := List.length_pos_iff.2 some_data
  rw [readChunks, line_eq]
  dsimp only
  rw [size]
  dsimp only
  rw [if_neg (by omega), Int.toNat_natCast, stored]
  dsimp only [append]
  rw [read_eq]

/-- What is accepted is read from every socket, if the lines are within the limit. -/
theorem readChunks_flows {received : Octets} (accepts : Accepts (inputLimit + 1) received payload rest)
    (flowing : self.socket.Flows) (content : self.socket.unread = received) {times : Nat}
    (enough : received.length < times) :
    ∃ socket, readChunks inputLimit times self = .ok () (self.append socket payload) ∧
      socket.unread = rest := by
  induction accepts generalizing self times with
  | @last line pair rest no_feed fits beyond two =>
      obtain ⟨times, rfl⟩ : ∃ fewer, times = fewer + 1 := ⟨times - 1, by omega⟩
      have some_pair : pair ≠ [] := fun nothing => by
        rw [nothing] at two
        cases two
      obtain ⟨behind, line_eq, line_taken, behind_unread⟩ :=
        Buffered.getLine_within flowing content no_feed (Nat.le_of_lt_succ fits)
      obtain ⟨socket, read_eq, -, socket_unread⟩ :=
        Buffered.readFull_flows (line_taken.flows flowing) behind_unread some_pair
      rw [two] at read_eq
      exact ⟨socket, readChunks_last times line_eq beyond read_eq, socket_unread⟩
  | @chunk line data pair later payload rest no_feed fits size some_data two further ih =>
      obtain ⟨times, rfl⟩ : ∃ fewer, times = fewer + 1 := ⟨times - 1, by omega⟩
      have some_pair : pair ≠ [] := fun nothing => by
        rw [nothing] at two
        cases two
      obtain ⟨behind, line_eq, line_taken, behind_unread⟩ :=
        Buffered.getLine_within flowing content no_feed (Nat.le_of_lt_succ fits)
      obtain ⟨middle, stored, middle_flows, middle_unread⟩ := @readChunk_supplied
        { self with socket := behind } (pair ++ later)
        (fun octets socket => socket.Flows ∧ socket.unread = octets)
        (fun some_octets ⟨flowing, content⟩ =>
          let ⟨next, read_eq, taken, next_unread⟩ := Buffered.readFull_flows flowing content some_octets
          ⟨next, read_eq, taken.flows flowing, next_unread⟩)
        data some_data (data.length + 1) (Nat.lt_succ_self _)
        ⟨line_taken.flows flowing, behind_unread⟩
      obtain ⟨last, read_eq, pair_taken, last_unread⟩ :=
        Buffered.readFull_flows middle_flows middle_unread some_pair
      rw [two] at read_eq
      simp only [List.length_append, List.length_cons] at enough
      obtain ⟨socket, done, socket_unread⟩ := @ih (self.append last data)
        (pair_taken.flows middle_flows) last_unread times (by omega)
      rw [readChunks_chunk times line_eq size some_data stored read_eq, done, append_append]
      exact ⟨socket, rfl, socket_unread⟩

/-- What has been read has been accepted. -/
theorem accepts_of_readChunks {bound times : Nat} (flowing : self.socket.Flows)
    (bursts : self.socket.Bursts bound) (done : readChunks inputLimit times self = .ok () after) :
    ∃ socket payload, after = self.append socket payload ∧
      Accepts (inputLimit + bound) self.socket.unread payload socket.unread := by
  induction times generalizing self with
  | zero => cases done
  | succ times ih =>
      rw [readChunks] at done
      cases line_eq : self.socket.getLine inputLimit with
      | error exn behind =>
          rw [line_eq] at done
          cases done
      | ok line behind =>
          rw [line_eq] at done
          dsimp only at done
          cases size_eq : chunkSize line with
          | error exn =>
              rw [size_eq] at done
              cases done
          | ok cSize =>
              rw [size_eq] at done
              dsimp only at done
              obtain ⟨front, no_feed, rfl, front_taken, front_fits⟩ | behind_nil :=
                Buffered.getLine_taken flowing bursts line_eq
              · have line_unread : self.socket.unread = front ++ lf :: behind.unread := by
                  rw [front_taken.unread_eq, List.append_assoc]
                  rfl
                rw [line_unread]
                split_ifs at done with beyond
                · subst beyond
                  cases read_eq : behind.readFull 2 with
                  | error exn last =>
                      rw [read_eq] at done
                      cases done
                  | ok pair last =>
                      rw [read_eq] at done
                      cases done
                      obtain ⟨pair_taken, two⟩ := Buffered.readFull_took read_eq
                      refine ⟨last, [], (append_nil last).symm, ?_⟩
                      rw [pair_taken.unread_eq]
                      exact .last no_feed front_fits size_eq two
                · cases stored : readChunk (cSize.toNat + 1) cSize.toNat { self with socket := behind } with
                  | error exn middle =>
                      rw [stored] at done
                      cases done
                  | ok _ middle =>
                      rw [stored] at done
                      dsimp only at done
                      obtain ⟨socket, data, rfl, data_taken, data_length⟩ := readChunk_took stored
                      cases read_eq : socket.readFull 2 with
                      | error exn last =>
                          rw [append, read_eq] at done
                          cases done
                      | ok pair last =>
                          rw [append, read_eq] at done
                          obtain ⟨pair_taken, two⟩ := Buffered.readFull_took read_eq
                          have last_taken := (front_taken.trans data_taken).trans pair_taken
                          obtain ⟨final, payload, rfl, accepts⟩ := @ih (self.append last data)
                            (last_taken.flows flowing) (last_taken.bursts bursts) done
                          refine ⟨final, data ++ payload, append_append .., ?_⟩
                          have behind_unread : behind.unread = data ++ (pair ++ last.unread) := by
                            rw [← pair_taken.unread_eq]
                            exact data_taken.unread_eq
                          have nonneg := chunkSize_nonneg size_eq
                          rw [behind_unread]
                          refine .chunk no_feed front_fits ?_ ?_ two accepts
                          · rw [size_eq, data_length, Int.toNat_of_nonneg nonneg]
                          · rw [← List.length_pos_iff]
                            omega
              · -- nothing arrives behind the line
                have nothing : ∀ {data : Octets} {next : Buffered}, Buffered.Took data behind next →
                    data.length = 0 := by
                  intro data next taken
                  have lengths := congrArg List.length taken.unread_eq
                  rw [behind_nil, List.length_append, List.length_nil] at lengths
                  omega
                split_ifs at done with beyond
                · cases read_eq : behind.readFull 2 with
                  | error exn last =>
                      rw [read_eq] at done
                      cases done
                  | ok pair last =>
                      obtain ⟨pair_taken, two⟩ := Buffered.readFull_took read_eq
                      exact absurd (two.symm.trans (nothing pair_taken)) (by decide)
                · cases stored : readChunk (cSize.toNat + 1) cSize.toNat { self with socket := behind } with
                  | error exn middle =>
                      rw [stored] at done
                      cases done
                  | ok _ middle =>
                      obtain ⟨socket, data, -, data_taken, data_length⟩ := readChunk_took stored
                      have nonneg := chunkSize_nonneg size_eq
                      have empty := nothing data_taken
                      omega

private theorem exists_pieces {received : Octets}
    (accepts : Accepts (inputLimit + Net.rCacheSize) received payload rest) :
    ∃ arrivals : List Net.Arrival, arrivals.flatMap Net.Arrival.octets ++ rest = received ∧
      (∀ arrival ∈ arrivals, arrival.octets ≠ []) ∧
      ∀ (later : List Net.Arrival) (times : Nat) (self : Receiving),
        Buffered.Stands (arrivals ++ later) self.socket → received.length < times →
        ∃ socket, readChunks inputLimit times self = .ok () (self.append socket payload) ∧
          Buffered.Stands later socket := by
  induction accepts with
  | @last line pair rest no_feed fits beyond two =>
      have some_pair : pair ≠ [] := fun nothing => by
        rw [nothing] at two
        cases two
      obtain ⟨front, front_eq, front_some, reads⟩ := Buffered.exists_line_pieces no_feed fits
      refine ⟨front ++ Buffered.singles pair, ?_, ?_, ?_⟩
      · rw [List.flatMap_append, front_eq, Buffered.flatMap_singles]
        simp only [List.append_assoc, List.cons_append, List.nil_append]
      · exact fun arrival among =>
          (List.mem_append.1 among).elim (front_some arrival) Buffered.singles_some
      · intro later times self stands enough
        obtain ⟨times, rfl⟩ : ∃ fewer, times = fewer + 1 := ⟨times - 1, by omega⟩
        rw [List.append_assoc] at stands
        obtain ⟨behind, line_eq, behind_stands⟩ := reads stands
        obtain ⟨last, read_eq, last_stands⟩ := Buffered.readFull_singles some_pair behind_stands
        rw [two] at read_eq
        exact ⟨last, readChunks_last times line_eq beyond read_eq, last_stands⟩
  | @chunk line data pair received payload rest no_feed fits size some_data two further ih =>
      have some_pair : pair ≠ [] := fun nothing => by
        rw [nothing] at two
        cases two
      obtain ⟨front, front_eq, front_some, reads⟩ := Buffered.exists_line_pieces no_feed fits
      obtain ⟨back, back_eq, back_some, loops⟩ := ih
      refine ⟨front ++ (Buffered.singles data ++ (Buffered.singles pair ++ back)), ?_, ?_, ?_⟩
      · simp only [List.flatMap_append, front_eq, Buffered.flatMap_singles, ← back_eq, List.append_assoc,
          List.cons_append, List.nil_append]
      · simp only [List.mem_append]
        rintro arrival (among | among | among | among)
        · exact front_some arrival among
        · exact Buffered.singles_some among
        · exact Buffered.singles_some among
        · exact back_some arrival among
      · intro later times self stands enough
        obtain ⟨times, rfl⟩ : ∃ fewer, times = fewer + 1 := ⟨times - 1, by omega⟩
        rw [List.append_assoc] at stands
        obtain ⟨behind, line_eq, behind_stands⟩ := reads stands
        obtain ⟨middle, stored, middle_stands⟩ := @readChunk_supplied { self with socket := behind } []
          (fun octets socket => Buffered.Stands
            (Buffered.singles octets ++ (Buffered.singles pair ++ back ++ later)) socket)
          (fun some_octets stands => by
            rw [Buffered.singles_append, List.append_assoc] at stands
            exact Buffered.readFull_singles some_octets stands)
          data some_data (data.length + 1) (Nat.lt_succ_self _) (by
            rw [List.append_nil]
            simpa only [List.append_assoc] using behind_stands)
        have pair_stands : Buffered.Stands (Buffered.singles pair ++ (back ++ later)) middle := by
          rw [← List.append_assoc]
          exact middle_stands
        obtain ⟨last, read_eq, last_stands⟩ := Buffered.readFull_singles some_pair pair_stands
        rw [two] at read_eq
        simp only [List.length_append, List.length_cons] at enough
        obtain ⟨socket, done, socket_stands⟩ :=
          loops later times (self.append last data) last_stands (by omega)
        rw [readChunks_chunk times line_eq size some_data stored read_eq, done, append_append]
        exact ⟨socket, rfl, socket_stands⟩

/-- What is accepted is read from some socket. -/
theorem exists_socket {received : Octets}
    (accepts : Accepts (inputLimit + Net.rCacheSize) received payload rest) :
    ∃ socket : Buffered, socket.Flows ∧ socket.unread = received ∧
      ∀ (data : Data) (times : Nat), received.length < times →
        ∃ after, readChunks inputLimit times ⟨socket, data⟩ = .ok () after := by
  obtain ⟨arrivals, received_eq, arrivals_some, loops⟩ := exists_pieces accepts
  refine ⟨{ arrivals := arrivals ++ Buffered.singles rest }, ?_, ?_, ?_⟩
  · exact fun arrival among =>
      (List.mem_append.1 among).elim (arrivals_some arrival) Buffered.singles_some
  · show [] ++ (arrivals ++ Buffered.singles rest).flatMap Net.Arrival.octets = received
    rw [List.flatMap_append, Buffered.flatMap_singles, List.nil_append, received_eq]
  · intro data times enough
    obtain ⟨socket, done, -⟩ := loops (Buffered.singles rest) times
      ⟨{ arrivals := arrivals ++ Buffered.singles rest }, data⟩ ⟨rfl, rfl, rfl⟩ enough
    exact ⟨_, done⟩

end Receiving

/-! ## Messages that are accepted -/

/-- A size line without extensions, within the limit for input and the range of sizes. -/
structure BareLine (inputLimit : Positive) (size : SizeLine) : Prop where
  extension_nil : size.extension = []
  digits_fit : size.digits.length < inputLimit
  value_lt : size.value < 2 ^ 63

/-- A message with neither extensions nor trailer fields, of which all sizes can be read. -/
structure Bare (inputLimit : Positive) (framing : Framing) : Prop where
  chunks : ∀ chunk ∈ framing.chunks, BareLine inputLimit chunk.size
  last : BareLine inputLimit framing.last
  trailers : framing.trailers = []

open Receiving (Accepts chunkSize chunkSize_text_iff)

variable {inputLimit : Positive} {payload rest : Octets}

private theorem size_append (size : SizeLine) (behind : Octets) :
    size.octets ++ behind = (size.text ++ [cr]) ++ lf :: behind := by
  simp only [SizeLine.octets, crlf, List.append_assoc, List.cons_append, List.nil_append]

private theorem size_no_feed (size : SizeLine) : lf ∉ size.text ++ [cr] := by
  rw [List.mem_append, not_or]
  exact ⟨size.lf_not_mem_text, by decide⟩

private theorem size_stripped (size : SizeLine) : stripLine (size.text ++ [cr] ++ [lf]) = size.text := by
  rw [List.append_assoc]
  exact Net.stripLine_crlf size.text

private theorem BareLine.fits {size : SizeLine} (bare : BareLine inputLimit size) :
    (size.text ++ [cr]).length < inputLimit + 1 := by
  have digits_fit := bare.digits_fit
  rw [SizeLine.text, bare.extension_nil, List.append_nil, List.length_append, List.length_singleton]
  omega

private theorem BareLine.chunkSize_eq {size : SizeLine} (bare : BareLine inputLimit size) :
    chunkSize (stripLine (size.text ++ [cr] ++ [lf])) = .ok (size.value : Int) := by
  rw [size_stripped]
  exact chunkSize_text_iff.2 ⟨bare.extension_nil, rfl, bare.value_lt⟩

private theorem bareLine_of_accepted {size : SizeLine} {cSize : Int}
    (fits : (size.text ++ [cr]).length < inputLimit + 1)
    (read : chunkSize (stripLine (size.text ++ [cr] ++ [lf])) = .ok cSize) :
    BareLine inputLimit size ∧ cSize = size.value := by
  rw [size_stripped] at read
  obtain ⟨extension_nil, size_eq, value_lt⟩ := chunkSize_text_iff.1 read
  rw [SizeLine.text, extension_nil, List.append_nil, List.length_append, List.length_singleton] at fits
  exact ⟨⟨extension_nil, by omega, value_lt⟩, size_eq⟩

theorem Bare.accepts {framing : Framing} (bare : Bare inputLimit framing) (rest : Octets) :
    Accepts (inputLimit + 1) (framing.octets ++ rest) framing.payload rest := by
  have all : ∀ chunks : List Chunk, (∀ chunk ∈ chunks, BareLine inputLimit chunk.size) →
      Accepts (inputLimit + 1) (chunks.flatMap Chunk.octets ++ (framing.last.octets ++ (crlf ++ rest)))
        (chunks.flatMap Chunk.data) rest := by
    intro chunks
    induction chunks with
    | nil =>
        intro _
        show Accepts _ (framing.last.octets ++ (crlf ++ rest)) [] rest
        rw [size_append]
        refine .last (size_no_feed _) bare.last.fits ?_ rfl
        rw [bare.last.chunkSize_eq, framing.last_zero]
        rfl
    | cons chunk chunks ih =>
        intro bare_chunks
        rw [List.forall_mem_cons] at bare_chunks
        rw [List.flatMap_cons, List.flatMap_cons, Chunk.octets]
        simp only [List.append_assoc]
        rw [size_append]
        refine .chunk (size_no_feed _) bare_chunks.1.fits ?_ chunk.data_ne rfl (ih bare_chunks.2)
        rw [bare_chunks.1.chunkSize_eq, chunk.value_eq]
  rw [framing_append, bare.trailers]
  exact all framing.chunks bare.chunks

/-- What is accepted of a text that begins with some line. -/
private theorem accepts_line {lineLimit : Nat} {line behind : Octets} (no_feed : lf ∉ line)
    (accepts : Accepts lineLimit (line ++ lf :: behind) payload rest) :
    line.length < lineLimit ∧
      (chunkSize (stripLine (line ++ [lf])) = .ok 0 ∧ behind.length = 2 + rest.length ∨
        ∃ data pair later payload, chunkSize (stripLine (line ++ [lf])) = .ok (data.length : Int) ∧
          data ≠ [] ∧ pair.length = 2 ∧ behind = data ++ (pair ++ later) ∧
          Accepts lineLimit later payload rest) := by
  generalize received_eq : line ++ lf :: behind = received at accepts
  cases accepts with
  | last no_other_feed fits beyond two =>
      obtain ⟨rfl, rfl⟩ := line_unique no_feed no_other_feed received_eq
      refine ⟨fits, .inl ⟨beyond, ?_⟩⟩
      rw [List.length_append, two]
  | chunk no_other_feed fits size some_data two further =>
      obtain ⟨rfl, rfl⟩ := line_unique no_feed no_other_feed received_eq
      exact ⟨fits, .inr ⟨_, _, _, _, size, some_data, two, rfl, further⟩⟩

theorem bare_of_accepts {framing : Framing}
    (accepts : Accepts (inputLimit + 1) (framing.octets ++ rest) payload rest) :
    Bare inputLimit framing := by
  have all : ∀ (chunks : List Chunk) {payload : Octets},
      Accepts (inputLimit + 1) (chunks.flatMap Chunk.octets ++ (framing.last.octets ++
        (framing.trailers.flatMap (· ++ crlf) ++ (crlf ++ rest)))) payload rest →
      (∀ chunk ∈ chunks, BareLine inputLimit chunk.size) ∧ BareLine inputLimit framing.last ∧
        framing.trailers = [] := by
    intro chunks
    induction chunks with
    | nil =>
        intro payload accepts
        rw [List.flatMap_nil, List.nil_append, size_append] at accepts
        obtain ⟨fits, ⟨beyond, behind_length⟩ | ⟨data, _, _, _, size, some_data, -⟩⟩ :=
          accepts_line (size_no_feed _) accepts
        · refine ⟨nofun, (bareLine_of_accepted fits beyond).1, ?_⟩
          have no_octets : (framing.trailers.flatMap (· ++ crlf)).length = 0 := by
            rw [List.length_append, List.length_append] at behind_length
            change _ + (2 + _) = _ at behind_length
            omega
          rw [List.length_eq_zero_iff, List.flatMap_eq_nil_iff] at no_octets
          refine List.eq_nil_iff_forall_not_mem.2 fun field among => ?_
          exact List.append_ne_nil_of_right_ne_nil field (List.cons_ne_nil _ _) (no_octets field among)
        · have size_eq := (bareLine_of_accepted fits size).2
          rw [framing.last_zero] at size_eq
          have positive := List.length_pos_iff.2 some_data
          omega
    | cons chunk chunks ih =>
        intro payload accepts
        rw [List.flatMap_cons, Chunk.octets] at accepts
        simp only [List.append_assoc] at accepts
        rw [size_append] at accepts
        obtain ⟨fits, ⟨beyond, -⟩ | ⟨data, pair, later, payload, size, -, two, behind_eq, further⟩⟩ :=
          accepts_line (size_no_feed _) accepts
        · have size_eq := (bareLine_of_accepted fits beyond).2
          have positive := List.length_pos_iff.2 chunk.data_ne
          rw [chunk.value_eq] at size_eq
          omega
        · obtain ⟨bare, size_eq⟩ := bareLine_of_accepted fits size
          rw [chunk.value_eq, Int.natCast_inj] at size_eq
          have after_data := (List.append_inj behind_eq size_eq.symm).2
          have after_pair := (List.append_inj after_data two.symm).2
          rw [← after_pair] at further
          obtain ⟨chunks_bare, last_bare, trailers_nil⟩ := ih further
          exact ⟨List.forall_mem_cons.2 ⟨bare, chunks_bare⟩, last_bare, trailers_nil⟩
  rw [framing_append] at accepts
  obtain ⟨chunks_bare, last_bare, trailers_nil⟩ := all framing.chunks accepts
  exact ⟨chunks_bare, last_bare, trailers_nil⟩

/-! ## Chunked requests -/

/-- The name of the chunked transfer coding, in any letter case. -/
structure CodingName where
  name : Text
  chunked : toLower name = text "chunked"

/-- A request with a transfer coding, and so without a content length, of which no body has been read. -/
def request (coding : CodingName) (socket : Buffered) : Receiving :=
  ⟨socket, ⟨coding.name, 0, none⟩⟩

/-- If a message is received then its payload is stored and exactly its octets are taken from the
socket, however they arrive; and if something else is received then an exception is raised. -/
structure Decoded (inputLimit : Positive) (coding : CodingName) (received : Octets) : Prop where
  message : ∀ (framing : Framing) (rest : Octets), WellFormed framing →
    received = framing.octets ++ rest → ∀ socket : Buffered, socket.Flows → socket.unread = received →
      ∃ after, (request coding socket).readBody inputLimit [] = .ok () after ∧
        after.data.binaryData = some framing.payload ∧ after.socket.unread = rest
  other : (∀ (framing : Framing) (rest : Octets), WellFormed framing →
    received ≠ framing.octets ++ rest) → ∀ socket : Buffered, socket.Flows → socket.unread = received →
      ∃ exn after, (request coding socket).readBody inputLimit [] = .error exn after

/-- The name of the coding is in lower case, and a bare message is received, or neither a message nor
anything else that is accepted; or the name is not in lower case and nothing is received. -/
def Supported (inputLimit : Positive) (coding : CodingName) (received : Octets) : Prop :=
  if coding.name = text "chunked" then
    (∃ framing rest, received = framing.octets ++ rest ∧ Bare inputLimit framing) ∨
      (∀ (framing : Framing) (rest : Octets), WellFormed framing → received ≠ framing.octets ++ rest) ∧
        ∀ payload rest, ¬Accepts (inputLimit + Net.rCacheSize) received payload rest
  else received = []

theorem Bare.wellFormed {framing : Framing} (bare : Bare inputLimit framing) : WellFormed framing where
  chunks chunk among := by
    rw [(bare.chunks chunk among).extension_nil]
    exact .nil
  last := by
    rw [bare.last.extension_nil]
    exact .nil
  trailers := by
    rw [bare.trailers]
    exact nofun

variable {coding : CodingName} {socket : Buffered} {received : Octets}

private theorem readBody_chunked (lower : coding.name = text "chunked") (socket : Buffered) :
    (request coding socket).readBody inputLimit [] =
      Receiving.readChunks inputLimit (socket.unread.length + 1) ⟨socket, ⟨coding.name, 0, some []⟩⟩ :=
  if_pos lower

/-- Under another name nothing is read, but something has to arrive. -/
private theorem readBody_other (other : coding.name ≠ text "chunked") (flowing : socket.Flows) :
    socket.unread ≠ [] ∧ (∃ after, (request coding socket).readBody inputLimit [] = .ok () after ∧
        after.socket.unread = socket.unread) ∨
      socket.unread = [] ∧ ∃ exn after,
        (request coding socket).readBody inputLimit [] = .error exn after := by
  have unfolded : (request coding socket).readBody inputLimit [] =
      Receiving.readChunk 1 0 ⟨socket, ⟨coding.name, 0, some []⟩⟩ := if_neg other
  rw [unfolded, Receiving.readChunk, if_neg (by decide)]
  obtain ⟨some_octet, next, read_eq, taken⟩ | ⟨nothing, exn, next, failed_eq⟩ :=
    Buffered.readFull_zero flowing
  · dsimp only
    rw [read_eq]
    exact .inl ⟨some_octet, _, rfl, taken.unread_eq.symm⟩
  · dsimp only
    rw [failed_eq]
    exact .inr ⟨nothing, _, _, rfl⟩

/-- What is read of a request has been accepted. -/
private theorem accepts_of_readBody (lower : coding.name = text "chunked") (flowing : socket.Flows)
    {bound : Nat} (bursts : socket.Bursts bound) {after : Receiving}
    (done : (request coding socket).readBody inputLimit [] = .ok () after) :
    ∃ payload, after.data.binaryData = some payload ∧
      Accepts (inputLimit + bound) socket.unread payload after.socket.unread := by
  rw [readBody_chunked lower] at done
  obtain ⟨last, payload, rfl, accepts⟩ := Receiving.accepts_of_readChunks flowing bursts done
  exact ⟨payload, rfl, accepts⟩

theorem length_octets_pos (framing : Framing) : framing.octets ≠ [] := by
  rw [Framing.octets, Framing.ending]
  exact List.append_ne_nil_of_right_ne_nil _ (List.append_ne_nil_of_right_ne_nil _ (List.cons_ne_nil _ _))

/-- Chunked bodies are decoded exactly when they are supported. -/
theorem decoded_iff_supported (inputLimit : Positive) (coding : CodingName) (received : Octets) :
    Decoded inputLimit coding received ↔ Supported inputLimit coding received := by
  rw [Supported]
  split_ifs with lower
  · constructor
    · intro decoded
      by_cases message : ∃ (framing : Framing) (rest : Octets), WellFormed framing ∧
          received = framing.octets ++ rest
      · obtain ⟨framing, rest, well_formed, received_eq⟩ := message
        have flowing := Client.trickle_flows received
        have unread_eq := Client.trickle_unread received
        obtain ⟨after, done, body_eq, after_unread⟩ :=
          decoded.message framing rest well_formed received_eq _ flowing unread_eq
        obtain ⟨payload, -, accepts⟩ :=
          accepts_of_readBody lower flowing (.inr (Client.trickle_pieces received)) done
        rw [unread_eq, received_eq, after_unread] at accepts
        exact .inl ⟨framing, rest, received_eq, bare_of_accepts accepts⟩
      · have no_message : ∀ (framing : Framing) (rest : Octets), WellFormed framing →
            received ≠ framing.octets ++ rest := fun framing rest well_formed same =>
          message ⟨framing, rest, well_formed, same⟩
        refine .inr ⟨no_message, fun payload rest accepts => ?_⟩
        obtain ⟨socket, flowing, unread_eq, reads⟩ := Receiving.exists_socket accepts
        obtain ⟨exn, after, failed⟩ := decoded.other no_message socket flowing unread_eq
        obtain ⟨final, done⟩ := reads ⟨coding.name, 0, some []⟩ (socket.unread.length + 1)
          (by rw [unread_eq]; exact Nat.lt_succ_self _)
        rw [readBody_chunked lower, done] at failed
        cases failed
    · rintro (⟨framing, rest, rfl, bare⟩ | ⟨no_message, refused⟩)
      · constructor
        · intro other behind _ same socket flowing unread_eq
          obtain ⟨payload_eq, rest_eq⟩ := framing_unique same
          obtain ⟨last, done, last_unread⟩ := @Receiving.readChunks_flows
            ⟨socket, ⟨coding.name, 0, some []⟩⟩ inputLimit _ _ _ (bare.accepts rest) flowing unread_eq
            (socket.unread.length + 1) (by rw [unread_eq]; exact Nat.lt_succ_self _)
          refine ⟨_, (readBody_chunked lower socket).trans done, ?_, last_unread.trans rest_eq⟩
          exact congrArg some payload_eq
        · exact fun no_message => absurd rfl (no_message framing rest bare.wellFormed)
      · constructor
        · exact fun framing rest well_formed same => absurd same (no_message framing rest well_formed)
        · intro _ socket flowing unread_eq
          cases done : (request coding socket).readBody inputLimit [] with
          | error exn after => exact ⟨exn, after, rfl⟩
          | ok _ after =>
              obtain ⟨payload, -, accepts⟩ := accepts_of_readBody lower flowing (.inl rfl) done
              rw [unread_eq] at accepts
              exact absurd accepts (refused _ _)
  · constructor
    · intro decoded
      by_contra some_octet
      have flowing := Client.trickle_flows received
      have unread_eq := Client.trickle_unread received
      obtain ⟨-, after, done, after_unread⟩ | ⟨nothing, -⟩ :=
        @readBody_other inputLimit coding _ lower flowing
      · by_cases message : ∃ (framing : Framing) (rest : Octets), WellFormed framing ∧
            received = framing.octets ++ rest
        · obtain ⟨framing, rest, well_formed, received_eq⟩ := message
          obtain ⟨final, final_done, -, final_unread⟩ :=
            decoded.message framing rest well_formed received_eq _ flowing unread_eq
          cases done.symm.trans final_done
          rw [final_unread, unread_eq, received_eq] at after_unread
          have lengths := congrArg List.length after_unread
          have positive := List.length_pos_iff.2 (length_octets_pos framing)
          rw [List.length_append] at lengths
          omega
        · obtain ⟨exn, final, failed⟩ := decoded.other
            (fun framing rest well_formed same => message ⟨framing, rest, well_formed, same⟩) _ flowing
            unread_eq
          cases done.symm.trans failed
      · exact some_octet (unread_eq.symm.trans nothing)
    · rintro rfl
      constructor
      · intro framing rest _ same
        exact absurd (List.append_eq_nil_iff.1 same.symm).1 (length_octets_pos framing)
      · intro _ socket flowing unread_eq
        obtain ⟨some_octet, -⟩ | ⟨-, failed⟩ := @readBody_other inputLimit coding _ lower flowing
        · exact absurd unread_eq some_octet
        · exact failed

/-- An empty body. -/
def emptyFraming : Framing where
  chunks := []
  last := Client.noOctet
  trailers := []
  last_zero := rfl
  trailers_ne := Framing.nil_ne
  trailers_line := Framing.nil_line

/-- Under the name `Chunked` the octets of an empty body are left on the socket. -/
theorem coding_name_case :
    ¬∀ (inputLimit : Positive) (coding : CodingName) (received : Octets),
      Decoded inputLimit coding received := by
  intro decoded
  let coding : CodingName := ⟨text "Chunked", by decide⟩
  have well_formed : WellFormed emptyFraming := ⟨nofun, .nil, nofun⟩
  have flowing := Client.trickle_flows emptyFraming.octets
  have unread_eq := Client.trickle_unread emptyFraming.octets
  obtain ⟨after, done, -, after_unread⟩ := (decoded ⟨1024, by decide⟩ coding emptyFraming.octets).message
    emptyFraming [] well_formed (List.append_nil _).symm _ flowing unread_eq
  obtain ⟨-, other, other_done, other_unread⟩ | ⟨nothing, -⟩ :=
    @readBody_other ⟨1024, by decide⟩ coding _ (by decide) flowing
  · cases done.symm.trans other_done
    exact length_octets_pos emptyFraming (unread_eq.symm.trans (other_unread.symm.trans after_unread))
  · exact length_octets_pos emptyFraming (unread_eq.symm.trans nothing)

end Status
end AdaWebServer

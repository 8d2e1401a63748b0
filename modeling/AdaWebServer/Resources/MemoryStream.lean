import AdaWebServer.Resources.Stream

/-!
# Memory streams

A stream of octets kept in a linked list of blocks, with a reading position.  The last block may be
longer than the octets stored in it.
-/

namespace AdaWebServer
namespace Resources

open Http2

/-- `Memory_Streams.Stream_Type`. -/
structure MemoryStream where
  /-- The arrays of the blocks, from `First` to `Last`. -/
  blocks : List Octets
  /-- Number of octets stored in the last block. -/
  lastLength : Nat
  length : Nat
  /-- The arrays of the blocks from `Current` on, none when it is null. -/
  current : List Octets
  /-- `Current_Offset`, counted from the first index of the current array. -/
  currentOffset : Nat
  deriving DecidableEq

namespace MemoryStream

/-- `Size`. -/
def size (self : MemoryStream) : Option Nat := some self.length

/-- `End_Of_File`. -/
def endOfFile (self : MemoryStream) : Bool :=
  match self.current with
  | [] => true
  | [last] => last.length ≤ self.currentOffset
  | _ => false

/-- The loop of `Set_Index`, with the number of octets in front of the blocks. -/
def seek (target : Nat) : Nat → List Octets → List Octets × Nat
  | _, [] => ([], 0)
  | idx, block :: blocks =>
      let idx := idx + block.length
      if idx < target then
        seek target idx blocks
      else
        (block :: blocks, block.length + target - idx - 1)

/-- `Set_Index`. -/
def setIndex (self : MemoryStream) (target : Nat) : Except Exn MemoryStream :=
  if target < 1 ∨ self.length < target then
    match self.blocks.getLast? with
    | some last => .ok { self with current := [last], currentOffset := last.length }
    | none => .error .constraintError
  else
    let (current, currentOffset) := seek target 0 self.blocks
    .ok { self with current, currentOffset }

/-- The octets stored in the first of some blocks. -/
def blockData (lastLength : Nat) (block : Octets) (later : List Octets) : Octets :=
  if later = [] then block.take lastLength else block

/-- The loop of `Read`: the octets read, the blocks from the current one on, and the offset.  Its
`Append` computes the remaining lengths minus 1, which are checked not to be negative. -/
def readBlocks (lastLength : Nat) : List Octets → Nat → Nat →
    Except Exn (Octets × List Octets × Nat)
  | [], offset, _ => .ok ([], [], offset)
  | block :: later, offset, room =>
      let data := blockData lastLength block later
      if room = 0 ∨ data.length ≤ offset then
        .error .constraintError
      else if room < data.length - offset then
        .ok ((data.drop offset).take room, block :: later, offset + room)
      else if later = [] then
        .ok (data.drop offset, [], data.length)
      else if room = data.length - offset then
        .ok (data.drop offset, later, 0)
      else do
        let (more, position) ← readBlocks lastLength later 0 (room - (data.length - offset))
        return (data.drop offset ++ more, position)

/-- `Read`, into a buffer of the given length. -/
def read (self : MemoryStream) (room : Nat) : Except Exn (Octets × MemoryStream) := do
  let (data, current, currentOffset) ←
    readBlocks self.lastLength self.current self.currentOffset room
  return (data, { self with current, currentOffset })

/-- The loop of `Read` does not write behind the buffer. -/
theorem readBlocks_fits {lastLength : Nat} {blocks current : List Octets}
    {offset room position : Nat} {data : Octets}
    (done : readBlocks lastLength blocks offset room = .ok (data, current, position)) :
    data.length ≤ room := by
  induction blocks generalizing offset room data with
  | nil =>
      cases done
      exact Nat.zero_le _
  | cons block later ih =>
      rw [readBlocks] at done
      have length := List.length_drop (i := offset) (l := blockData lastLength block later)
      split_ifs at done with _ short beyond full
      · cases done
        exact List.length_take_le _ _
      · cases done
        omega
      · cases done
        omega
      · obtain ⟨⟨more, rest⟩, read, done⟩ := bind_eq_ok_iff.mp done
        cases done
        have fits := ih read
        rw [List.length_append]
        omega

instance : StreamType MemoryStream where
  size := size
  setIndex := setIndex
  read := read
  endOfFile := endOfFile
  read_fits := by
    intro stream after room data done
    obtain ⟨⟨_, _, _⟩, read, done⟩ := bind_eq_ok_iff.mp done
    cases done
    exact readBlocks_fits read

/-! ## The octets of a stream -/

/-- The octets stored in blocks up to the last one of a stream. -/
def stored (lastLength : Nat) : List Octets → Octets
  | [] => []
  | block :: later => blockData lastLength block later ++ stored lastLength later

/-- Blocks that store octets, the last one the given number of them. -/
structure Filled (lastLength : Nat) (blocks : List Octets) : Prop where
  nonempty : ∀ block ∈ blocks, block ≠ []
  positive : blocks ≠ [] → 1 ≤ lastLength
  fits : ∀ last ∈ blocks.getLast?, lastLength ≤ last.length

/-- The offset designates an octet of the first block, or is behind the array of the last one. -/
def Designates (lastLength offset : Nat) : List Octets → Prop
  | [] => True
  | block :: later =>
      offset < (blockData lastLength block later).length ∨ later = [] ∧ block.length ≤ offset

/-- The stream has the content, and its next octet is the one behind the position. -/
structure Holds (stream : MemoryStream) (content : Octets) (position : Nat) : Prop where
  filled : Filled stream.lastLength stream.blocks
  content_eq : stored stream.lastLength stream.blocks = content
  length_eq : stream.length = content.length
  current_suffix : stream.current <:+ stream.blocks
  designates : Designates stream.lastLength stream.currentOffset stream.current
  within : position ≤ content.length
  remaining :
    (stored stream.lastLength stream.current).drop stream.currentOffset = content.drop position

theorem Filled.suffix {lastLength : Nat} {blocks later : List Octets}
    (filled : Filled lastLength blocks) (suffix : later <:+ blocks) : Filled lastLength later := by
  obtain ⟨earlier, rfl⟩ := suffix
  refine ⟨fun block member => filled.nonempty block (List.mem_append_right _ member), ?_, ?_⟩
  · intro later_ne
    exact filled.positive (by simp [later_ne])
  · intro last member
    exact filled.fits last (by
      rw [List.getLast?_append]
      simp [Option.mem_def.mp member])

theorem Filled.tail {lastLength : Nat} {block : Octets} {blocks : List Octets}
    (filled : Filled lastLength (block :: blocks)) : Filled lastLength blocks :=
  filled.suffix (List.suffix_cons _ _)

theorem blockData_of_ne {lastLength : Nat} {block : Octets} {later : List Octets}
    (more : later ≠ []) : blockData lastLength block later = block := if_neg more

theorem Filled.blockData_length {lastLength : Nat} {block : Octets}
    (filled : Filled lastLength [block]) : (blockData lastLength block []).length = lastLength := by
  rw [blockData, if_pos rfl, List.length_take]
  exact min_eq_left (filled.fits block rfl)

theorem Filled.blockData_nonempty {lastLength : Nat} {block : Octets} {later : List Octets}
    (filled : Filled lastLength (block :: later)) :
    0 < (blockData lastLength block later).length := by
  cases later with
  | nil =>
      rw [filled.blockData_length]
      exact filled.positive (List.cons_ne_nil _ _)
  | cons next later =>
      rw [blockData_of_ne (List.cons_ne_nil _ _)]
      exact List.length_pos_iff.mpr (filled.nonempty block List.mem_cons_self)

theorem Filled.designates_start {lastLength : Nat} {blocks : List Octets}
    (filled : Filled lastLength blocks) : Designates lastLength 0 blocks := by
  cases blocks with
  | nil => trivial
  | cons block later => exact Or.inl filled.blockData_nonempty

/-! ## Seeking -/

/-- The target is found at its place among the octets of the blocks. -/
theorem seek_spec {lastLength : Nat} {blocks : List Octets} (filled : Filled lastLength blocks)
    {idx target : Nat} (after : idx < target)
    (within : target ≤ idx + (stored lastLength blocks).length) :
    (seek target idx blocks).1 <:+ blocks ∧
      Designates lastLength (seek target idx blocks).2 (seek target idx blocks).1 ∧
      (stored lastLength (seek target idx blocks).1).drop (seek target idx blocks).2 =
        (stored lastLength blocks).drop (target - idx - 1) := by
  induction blocks generalizing idx with
  | nil =>
      simp only [stored, List.length_nil] at within
      omega
  | cons block later ih =>
      rw [stored, List.length_append] at within
      rw [seek]
      by_cases beyond : idx + block.length < target
      · have more : later ≠ [] := by
          rintro rfl
          have fits := filled.fits block rfl
          have length := filled.blockData_length
          simp only [stored, List.length_nil] at within
          omega
        rw [blockData_of_ne more] at within
        obtain ⟨suffix, designates, same⟩ := ih filled.tail beyond (by omega)
        have behind : block.drop (target - idx - 1) = [] := List.drop_eq_nil_of_le (by omega)
        have left : target - (idx + block.length) - 1 = target - idx - 1 - block.length := by omega
        rw [if_pos beyond]
        refine ⟨suffix.trans (List.suffix_cons _ _), designates, same.trans ?_⟩
        rw [stored, blockData_of_ne more, List.drop_append, behind, List.nil_append, left]
      · have offset : block.length + target - (idx + block.length) - 1 = target - idx - 1 := by
          omega
        rw [if_neg beyond, offset]
        refine ⟨List.suffix_rfl, Or.inl ?_, rfl⟩
        cases later with
        | nil =>
            simp only [stored, List.length_nil] at within
            omega
        | cons next later =>
            rw [blockData_of_ne (List.cons_ne_nil _ _)]
            omega

/-! ## Reading -/

/-- `Read` gives the next octets, as many as fit, and stands behind them. -/
theorem readBlocks_spec {lastLength : Nat} {blocks : List Octets}
    (filled : Filled lastLength blocks) {offset room : Nat} (nonempty : 0 < room)
    (inside : ∀ block later, blocks = block :: later →
      offset < (blockData lastLength block later).length) :
    ∃ current position,
      readBlocks lastLength blocks offset room =
        .ok (((stored lastLength blocks).drop offset).take room, current, position) ∧
      current <:+ blocks ∧ Designates lastLength position current ∧
      (stored lastLength current).drop position =
        ((stored lastLength blocks).drop offset).drop room := by
  induction blocks generalizing offset room with
  | nil => exact ⟨[], offset, by simp [readBlocks, stored], List.suffix_rfl, trivial, by simp [stored]⟩
  | cons block later ih =>
      have offset_lt := inside block later rfl
      have dropped : (stored lastLength (block :: later)).drop offset =
          (blockData lastLength block later).drop offset ++ stored lastLength later := by
        rw [stored, List.drop_append_of_le_length offset_lt.le]
      have length := List.length_drop (i := offset) (l := blockData lastLength block later)
      rw [readBlocks, if_neg (by omega), dropped]
      by_cases short : room < (blockData lastLength block later).length - offset
      · refine ⟨block :: later, offset + room, ?_, List.suffix_rfl, Or.inl (by omega), ?_⟩
        · rw [if_pos short, List.take_append_of_le_length (by omega)]
        · rw [stored, ← List.drop_drop, List.drop_append_of_le_length offset_lt.le]
      · rw [if_neg short]
        have taken : ∀ rest : Octets,
            ((blockData lastLength block later).drop offset ++ rest).take room =
              (blockData lastLength block later).drop offset ++
                rest.take (room - ((blockData lastLength block later).length - offset)) := by
          intro rest
          rw [List.take_append, List.take_of_length_le (by omega), length]
        have left : ∀ rest : Octets,
            ((blockData lastLength block later).drop offset ++ rest).drop room =
              rest.drop (room - ((blockData lastLength block later).length - offset)) := by
          intro rest
          rw [List.drop_append, List.drop_eq_nil_of_le (by omega), List.nil_append, length]
        rw [taken, left]
        by_cases beyond : later = []
        · refine ⟨[], (blockData lastLength block later).length, ?_, List.nil_suffix, trivial, ?_⟩
          · rw [if_pos beyond, beyond]
            simp [stored]
          · rw [beyond]
            simp [stored]
        · rw [if_neg beyond]
          by_cases full : room = (blockData lastLength block later).length - offset
          · refine ⟨later, 0, ?_, List.suffix_cons _ _, filled.tail.designates_start, ?_⟩
            · rw [if_pos full, full]
              simp
            · rw [full]
              simp
          · obtain ⟨current, position, read, suffix, designates, same⟩ := @ih filled.tail 0
              (room - ((blockData lastLength block later).length - offset))
              (by omega) fun next rest later_eq => by
                subst later_eq
                exact filled.tail.blockData_nonempty
            refine ⟨current, position, ?_, suffix.trans (List.suffix_cons _ _), designates, ?_⟩
            · rw [if_neg full, read]
              rfl
            · simpa using same

/-! ## The specification of streams -/

/-- At the end nothing is left in the blocks from the current one on. -/
theorem Holds.finished_iff {stream : MemoryStream} {content : Octets} {position : Nat}
    (holds : Holds stream content position) :
    content.length ≤ position ↔
      (stored stream.lastLength stream.current).length ≤ stream.currentOffset := by
  have lengths := congrArg List.length holds.remaining
  simp only [List.length_drop] at lengths
  omega

theorem Holds.endOfFile_iff {stream : MemoryStream} {content : Octets} {position : Nat}
    (holds : Holds stream content position) :
    stream.endOfFile = true ↔ content.length ≤ position := by
  rw [holds.finished_iff]
  have filled := holds.filled.suffix holds.current_suffix
  have designates := holds.designates
  rw [endOfFile]
  cases blocks : stream.current with
  | nil => simp [stored]
  | cons block later =>
      rw [blocks] at filled designates
      have nonempty := filled.blockData_nonempty
      cases later with
      | nil =>
          have length := filled.blockData_length
          have fits := filled.fits block rfl
          have offset : stream.currentOffset < stream.lastLength ∨
              block.length ≤ stream.currentOffset := by
            simpa only [Designates, length, true_and] using designates
          simp only [stored, List.append_nil, length, decide_eq_true_eq]
          omega
      | cons next later =>
          have offset : stream.currentOffset < block.length := by
            simpa [Designates, blockData] using designates
          simp only [stored, blockData_of_ne (List.cons_ne_nil next later), List.length_append,
            Bool.false_eq_true, false_iff]
          omega

theorem Holds.setIndex_within {stream : MemoryStream} {content : Octets} {position target : Nat}
    (holds : Holds stream content position) (within : target < content.length) :
    ∃ after, stream.setIndex (target + 1) = .ok after ∧ Holds after content target := by
  have length := congrArg List.length holds.content_eq
  obtain ⟨suffix, designates, same⟩ := @seek_spec _ _ holds.filled 0 (target + 1)
    (Nat.succ_pos target) (by omega)
  refine ⟨{ stream with
      current := (seek (target + 1) 0 stream.blocks).1
      currentOffset := (seek (target + 1) 0 stream.blocks).2 }, ?_, ?_⟩
  · rw [setIndex, if_neg (by rw [holds.length_eq]; omega)]
  · exact
      { filled := holds.filled
        content_eq := holds.content_eq
        length_eq := holds.length_eq
        current_suffix := suffix
        designates := designates
        within := within.le
        remaining := by rw [same, holds.content_eq]; rfl }

theorem Holds.setIndex_beyond {stream after : MemoryStream} {content : Octets}
    {position target : Nat} (holds : Holds stream content position)
    (beyond : content.length ≤ target) (done : stream.setIndex (target + 1) = .ok after) :
    Holds after content content.length := by
  rw [setIndex, if_pos (Or.inr (by rw [holds.length_eq]; omega))] at done
  cases last : stream.blocks.getLast? with
  | none =>
      rw [last] at done
      cases done
  | some block =>
      rw [last] at done
      cases done
      have suffix : [block] <:+ stream.blocks := by
        obtain ⟨earlier, blocks_eq⟩ := List.getLast?_eq_some_iff.mp last
        exact ⟨earlier, blocks_eq.symm⟩
      refine
        { filled := holds.filled
          content_eq := holds.content_eq
          length_eq := holds.length_eq
          current_suffix := suffix
          designates := Or.inr ⟨rfl, le_rfl⟩
          within := le_rfl
          remaining := ?_ }
      rw [List.drop_length]
      refine List.drop_eq_nil_of_le ?_
      simp [stored, blockData]

theorem Holds.read_within {stream : MemoryStream} {content : Octets} {position room : Nat}
    (holds : Holds stream content position) (within : position < content.length)
    (nonempty : 0 < room) :
    ∃ after, stream.read room = .ok ((content.drop position).take room, after) ∧
      Holds after content (position + ((content.drop position).take room).length) := by
  have unfinished := mt holds.finished_iff.mpr (not_le.mpr within)
  have filled := holds.filled.suffix holds.current_suffix
  have inside : ∀ block later, stream.current = block :: later →
      stream.currentOffset < (blockData stream.lastLength block later).length := by
    intro block later current_eq
    have designates := holds.designates
    rw [current_eq] at designates filled unfinished
    rcases designates with inside | ⟨rfl, behind⟩
    · exact inside
    · have fits := filled.fits block rfl
      have length := filled.blockData_length
      simp only [stored, List.append_nil] at unfinished
      omega
  obtain ⟨current, offset, read, suffix, designates, left⟩ :=
    readBlocks_spec filled nonempty inside
  rw [holds.remaining] at read left
  refine ⟨{ stream with current, currentOffset := offset }, ?_, ?_⟩
  · rw [MemoryStream.read, read]
    rfl
  · exact
      { filled := holds.filled
        content_eq := holds.content_eq
        length_eq := holds.length_eq
        current_suffix := suffix.trans holds.current_suffix
        designates := designates
        within := by
          rw [List.length_take, List.length_drop]
          omega
        remaining := by
          rw [left, List.length_take, ← List.drop_drop]
          rcases Nat.le_total room (content.drop position).length with fits | short
          · rw [Nat.min_eq_left fits]
          · rw [Nat.min_eq_right short, List.drop_eq_nil_of_le short, List.drop_length] }

theorem Holds.read_end {stream after : MemoryStream} {content data : Octets} {room : Nat}
    (holds : Holds stream content content.length) (done : stream.read room = .ok (data, after)) :
    data = [] ∧ Holds after content content.length := by
  have finished := holds.finished_iff.mp le_rfl
  cases current_eq : stream.current with
  | nil =>
      rw [read, current_eq, readBlocks] at done
      cases done
      refine ⟨rfl, ?_⟩
      rw [← current_eq]
      exact holds
  | cons block later =>
      rw [current_eq, stored, List.length_append] at finished
      rw [read, current_eq, readBlocks, if_pos (Or.inr (by omega))] at done
      cases done

instance : Documented MemoryStream where
  Holds := Holds
  setIndex_within := Holds.setIndex_within
  setIndex_beyond := Holds.setIndex_beyond
  read_within := by
    intro stream content position room holds within nonempty
    obtain ⟨after, read, holds_after⟩ := Holds.read_within holds within nonempty
    refine ⟨_, after, read, ?_, List.take_prefix _ _, holds_after⟩
    rw [← List.length_pos_iff, List.length_take, List.length_drop]
    omega
  read_end := Holds.read_end
  endOfFile_iff := Holds.endOfFile_iff

end MemoryStream
end Resources
end AdaWebServer

import AdaWebServer.Resources.MemoryStream

/-!
# Appending to memory streams

Data fill the space that is left in the last block, and what does not fit there goes into a new block.
The blocks are shared by the stream and its reading position.
-/

namespace AdaWebServer
namespace Resources

open Http2

namespace MemoryStream

/-- A stream as it is created. -/
def create : MemoryStream where
  blocks := []
  lastLength := 0
  length := 0
  current := []
  currentOffset := 0

/-- The last block is replaced. -/
def onLast (replacement : Octets → List Octets) : List Octets → List Octets
  | [] => []
  | [last] => replacement last
  | block :: next :: later => block :: onLast replacement (next :: later)

/-- The array of a new block, longer than the data that it is for unless they fill it. -/
def newBlock (capacity : Nat) (trim : Bool) (data : Octets) : Octets :=
  if capacity ≤ data.length ∨ trim then data
  else data ++ List.replicate (capacity - data.length) 0

/-- The last block is replaced, for the stream and for its reading position. -/
def replaceLast (self : MemoryStream) (replacement : Octets → List Octets) : MemoryStream :=
  { self with
    blocks := onLast replacement self.blocks
    current := onLast replacement self.current }

/-- `Trim_Last_Block`. -/
def trimLastBlock (self : MemoryStream) : MemoryStream :=
  self.replaceLast fun last => [last.take self.lastLength]

/-- `Append` of an array, with the lengths of the first block and of further ones. -/
def append (firstBlockLength nextBlockLength : Nat) (value : Octets) (trim : Bool)
    (self : MemoryStream) : MemoryStream :=
  if value = [] then
    if trim then self.trimLastBlock else self
  else
    match self.blocks.getLast? with
    | none =>
        let block := newBlock firstBlockLength trim value
        { self with
          blocks := [block]
          current := [block]
          lastLength := value.length
          length := self.length + value.length }
    | some last =>
        if self.lastLength = last.length then
          { self.replaceLast (fun last => [last, newBlock nextBlockLength trim value]) with
            lastLength := value.length
            length := self.length + value.length }
        else if self.lastLength + value.length ≤ last.length then
          let filled :=
            { self.replaceLast (fun last => [last.take self.lastLength ++ value ++
                last.drop (self.lastLength + value.length)]) with
              lastLength := self.lastLength + value.length
              length := self.length + value.length }
          if trim then filled.trimLastBlock else filled
        else
          let room := last.length - self.lastLength
          { self.replaceLast (fun last => [last.take self.lastLength ++ value.take room,
              newBlock nextBlockLength trim (value.drop room)]) with
            lastLength := value.length - room
            length := self.length + value.length }

/-- `Append` of an access to an array, which becomes the last block. -/
def appendAccess (data : Octets) (self : MemoryStream) : MemoryStream :=
  if data = [] then self
  else if self.blocks = [] then
    { self with
      blocks := [data]
      current := [data]
      currentOffset := 0
      lastLength := data.length
      length := self.length + data.length }
  else
    { self.trimLastBlock.replaceLast (fun last => [last, data]) with
      lastLength := data.length
      length := self.length + data.length }

/-- `Reset`. -/
def reset (self : MemoryStream) : MemoryStream :=
  { self with current := self.blocks, currentOffset := 0 }

/-! ## The octets of extended blocks -/

theorem onLast_concat (replacement : Octets → List Octets) (earlier : List Octets) (last : Octets) :
    onLast replacement (earlier ++ [last]) = earlier ++ replacement last := by
  induction earlier with
  | nil => rfl
  | cons block earlier ih =>
      cases earlier with
      | nil => rfl
      | cons next earlier =>
          rw [List.cons_append, List.cons_append, onLast, ← List.cons_append, ih]
          rfl

/-- Blocks in front of others are stored as a whole. -/
theorem stored_append (lastLength : Nat) (earlier : List Octets) {later : List Octets}
    (later_ne : later ≠ []) :
    stored lastLength (earlier ++ later) = earlier.flatten ++ stored lastLength later := by
  induction earlier with
  | nil => rfl
  | cons block earlier ih =>
      rw [List.cons_append, stored, ih, blockData_of_ne (List.append_ne_nil_of_right_ne_nil _ later_ne),
        List.flatten_cons, List.append_assoc]

theorem stored_concat (lastLength : Nat) (earlier : List Octets) (last : Octets) :
    stored lastLength (earlier ++ [last]) = earlier.flatten ++ last.take lastLength := by
  rw [stored_append lastLength earlier (List.cons_ne_nil _ _)]
  simp [stored, blockData]

/-- Some blocks store what a last block did and some data behind it. -/
structure Extends (lastLength : Nat) (last value : Octets) (newLength : Nat) (first : Octets)
    (later : List Octets) : Prop where
  filled : Filled newLength (first :: later)
  stored_eq : stored newLength (first :: later) = last.take lastLength ++ value
  front : lastLength ≤ (blockData newLength first later).length
  behind : value = [] → later = [] ∧ first.length ≤ last.length

/-- A block that replaces the last one among others. -/
theorem Filled.extend {lastLength newLength : Nat} {earlier later : List Octets}
    {last value first : Octets} (filled : Filled lastLength (earlier ++ [last]))
    (extending : Extends lastLength last value newLength first later) :
    Filled newLength (earlier ++ first :: later) where
  nonempty block among := by
    obtain among | among := List.mem_append.1 among
    · exact filled.nonempty block (List.mem_append_left _ among)
    · exact extending.filled.nonempty block among
  positive _ := extending.filled.positive (List.cons_ne_nil _ _)
  fits block among := by
    rw [List.getLast?_append_of_ne_nil _ (List.cons_ne_nil _ _)] at among
    exact extending.filled.fits block among

/-- The blocks from the current one on end with the last block, unless the end has been read. -/
theorem Holds.current_cases {stream : MemoryStream} {content : Octets} {position : Nat}
    {earlier : List Octets} {last : Octets} (holds : Holds stream content position)
    (blocks_eq : stream.blocks = earlier ++ [last]) :
    stream.current = [] ∨ ∃ behind, behind <:+ earlier ∧ stream.current = behind ++ [last] := by
  obtain ⟨front, front_eq⟩ := holds.current_suffix
  rw [blocks_eq] at front_eq
  obtain current_nil | ⟨behind, block, current_eq⟩ := List.eq_nil_or_concat' stream.current
  · exact .inl current_nil
  · rw [current_eq, ← List.append_assoc] at front_eq
    obtain ⟨earlier_eq, last_eq⟩ := List.append_inj' front_eq rfl
    rw [List.cons.injEq] at last_eq
    exact .inr ⟨behind, ⟨front, earlier_eq⟩, by rw [current_eq, last_eq.1]⟩

/-- The position stays where it is when data are appended behind the last block, as long as it has not
come to the end. -/
theorem Holds.extend {stream : MemoryStream} {content value : Octets} {position newLength : Nat}
    {earlier later : List Octets} {last first : Octets} (holds : Holds stream content position)
    (blocks_eq : stream.blocks = earlier ++ [last])
    (extending : Extends stream.lastLength last value newLength first later)
    (replacement : Octets → List Octets) (replaced : replacement last = first :: later)
    (unfinished : value = [] ∨ position < content.length) :
    Holds { stream.replaceLast replacement with
        lastLength := newLength
        length := stream.length + value.length } (content ++ value) position := by
  have blocks_replaced : onLast replacement stream.blocks = earlier ++ first :: later := by
    rw [blocks_eq, onLast_concat, replaced]
  have content_eq : content = earlier.flatten ++ last.take stream.lastLength := by
    rw [← holds.content_eq, blocks_eq, stored_concat]
  have filled := holds.filled
  rw [blocks_eq] at filled
  have lengths := congrArg List.length holds.remaining
  rw [List.length_drop, List.length_drop] at lengths
  have current_cases := holds.current_cases blocks_eq
  refine ⟨?_, ?_, ?_, ?_, ?_, ?_, ?_⟩
  · show Filled newLength (onLast replacement stream.blocks)
    rw [blocks_replaced]
    exact filled.extend extending
  · show stored newLength (onLast replacement stream.blocks) = _
    rw [blocks_replaced, stored_append newLength earlier (List.cons_ne_nil _ _), extending.stored_eq,
      content_eq, List.append_assoc]
  · show stream.length + value.length = (content ++ value).length
    rw [List.length_append, holds.length_eq]
  · show onLast replacement stream.current <:+ onLast replacement stream.blocks
    obtain current_nil | ⟨behind, ⟨front, earlier_eq⟩, current_eq⟩ := current_cases
    · rw [current_nil]
      exact List.nil_suffix
    · rw [blocks_replaced, current_eq, onLast_concat, replaced]
      exact ⟨front, by rw [← List.append_assoc, earlier_eq]⟩
  · show Designates newLength stream.currentOffset (onLast replacement stream.current)
    have designates := holds.designates
    obtain current_nil | ⟨behind, _, current_eq⟩ := current_cases
    · rw [current_nil]
      trivial
    · rw [current_eq] at designates lengths
      rw [current_eq, onLast_concat, replaced]
      cases behind with
      | cons block behind =>
          rw [List.cons_append, Designates, blockData_of_ne (by simp)] at designates ⊢
          exact designates.imp_right fun beyond => absurd beyond.1 (by simp)
      | nil =>
          rw [List.nil_append, Designates] at designates
          rw [List.nil_append, Designates]
          obtain inside | ⟨_, beyond⟩ := designates
          · left
            rw [blockData, if_pos rfl, List.length_take] at inside
            exact Nat.lt_of_lt_of_le (Nat.lt_of_lt_of_le inside (Nat.min_le_left _ _))
              extending.front
          · right
            have stored_le : (stored stream.lastLength [last]).length ≤ last.length := by
              rw [← List.nil_append [last], stored_concat]
              exact List.length_take_le' _ _
            rw [List.nil_append] at lengths
            obtain ⟨later_nil, first_le⟩ := extending.behind (unfinished.resolve_right (by omega))
            exact ⟨later_nil, first_le.trans beyond⟩
  · show position ≤ (content ++ value).length
    rw [List.length_append]
    exact Nat.le_add_right_of_le holds.within
  · show (stored newLength (onLast replacement stream.current)).drop stream.currentOffset = _
    obtain current_nil | ⟨behind, _, current_eq⟩ := current_cases
    · rw [current_nil, stored, List.length_nil, Nat.zero_sub] at lengths
      have nothing : value = [] := unfinished.resolve_right (by omega)
      rw [current_nil, nothing, List.append_nil, onLast, ← holds.remaining, current_nil]
      rfl
    · have stored_eq : stored newLength (onLast replacement stream.current) =
          stored stream.lastLength stream.current ++ value := by
        rw [current_eq, onLast_concat, replaced, stored_append newLength behind (List.cons_ne_nil _ _),
          extending.stored_eq, stored_concat, List.append_assoc]
      rw [stored_eq]
      obtain nothing | before_end := unfinished
      · rw [nothing, List.append_nil, List.append_nil, holds.remaining]
      · rw [List.drop_append_of_le_length (by omega), List.drop_append_of_le_length before_end.le,
          holds.remaining]

/-! ## The ways to extend the last block -/

section Ways

variable {lastLength capacity : Nat} {last value : Octets} {trim : Bool}

/-- A new block stores its data. -/
theorem newBlock_spec (capacity : Nat) (trim : Bool) {data : Octets} (data_ne : data ≠ []) :
    newBlock capacity trim data ≠ [] ∧ data.length ≤ (newBlock capacity trim data).length ∧
      (newBlock capacity trim data).take data.length = data := by
  rw [newBlock]
  split_ifs
  · exact ⟨data_ne, le_rfl, List.take_length⟩
  · refine ⟨List.append_ne_nil_of_left_ne_nil data_ne _, ?_, List.take_left⟩
    rw [List.length_append]
    exact Nat.le_add_right _ _

/-- A further block behind a front that stays as it is. -/
theorem extends_further {front block data : Octets} (kept : last.take lastLength <+: front)
    (positive : 0 < lastLength) (fits : lastLength ≤ last.length) (data_ne : data ≠ [])
    (block_ne : block ≠ []) (block_fits : data.length ≤ block.length)
    (block_take : block.take data.length = data) (value_eq : front ++ data = last.take lastLength ++ value) :
    Extends lastLength last value data.length front [block] := by
  have front_le := kept.length_le
  rw [List.length_take_of_le fits] at front_le
  have front_ne : front ≠ [] := List.length_pos_iff.1 (by omega)
  refine ⟨⟨?_, fun _ => List.length_pos_iff.2 data_ne, ?_⟩, ?_, ?_, ?_⟩
  · simp [front_ne, block_ne]
  · rintro other among
    cases among
    exact block_fits
  · simp [stored, blockData, block_take, value_eq]
  · rwa [blockData_of_ne (List.cons_ne_nil _ _)]
  · rintro rfl
    exfalso
    have lengths := congrArg List.length value_eq
    rw [List.append_nil, List.length_append, List.length_take_of_le fits] at lengths
    have := List.length_pos_iff.2 data_ne
    omega

/-- The last block stays alone. -/
theorem extends_alone {block : Octets} {newLength : Nat} (positive : 0 < newLength)
    (block_fits : newLength ≤ block.length) (smaller : block.length ≤ last.length)
    (grows : lastLength ≤ newLength)
    (block_take : block.take newLength = last.take lastLength ++ value) :
    Extends lastLength last value newLength block [] := by
  have block_ne : block ≠ [] := List.length_pos_iff.1 (by omega)
  refine ⟨⟨by simpa using block_ne, fun _ => positive, ?_⟩, ?_, ?_, fun _ => ⟨rfl, smaller⟩⟩
  · rintro other among
    cases among
    exact block_fits
  · simpa [stored, blockData] using block_take
  · rw [blockData, if_pos rfl, List.length_take]
    omega

end Ways

/-- A stream with a last block. -/
theorem Holds.last_block {stream : MemoryStream} {content : Octets} {position : Nat} {last : Octets}
    (holds : Holds stream content position) (last_eq : stream.blocks.getLast? = some last) :
    ∃ earlier, stream.blocks = earlier ++ [last] ∧ 0 < stream.lastLength ∧
      stream.lastLength ≤ last.length := by
  obtain ⟨earlier, blocks_eq⟩ := List.getLast?_eq_some_iff.1 last_eq
  refine ⟨earlier, blocks_eq, holds.filled.positive ?_, holds.filled.fits last last_eq⟩
  rw [blocks_eq]
  exact List.append_ne_nil_of_right_ne_nil _ (List.cons_ne_nil _ _)

/-- Trimming the last block does not change what the stream holds. -/
theorem Holds.trimLastBlock {stream : MemoryStream} {content : Octets} {position : Nat}
    (holds : Holds stream content position) : Holds stream.trimLastBlock content position := by
  cases last_eq : stream.blocks.getLast? with
  | none =>
      have blocks_nil := List.getLast?_eq_none_iff.1 last_eq
      have current_nil : stream.current = [] :=
        List.suffix_nil.1 (blocks_nil ▸ holds.current_suffix)
      have same : stream.trimLastBlock = stream := by
        obtain ⟨blocks, lastLength, length, current, currentOffset⟩ := stream
        dsimp only at blocks_nil current_nil
        rw [blocks_nil, current_nil]
        rfl
      rwa [same]
  | some last =>
      obtain ⟨earlier, blocks_eq, positive, fits⟩ := holds.last_block last_eq
      have extending : Extends stream.lastLength last [] stream.lastLength
          (last.take stream.lastLength) [] :=
        extends_alone positive (List.length_take_of_le fits).ge (List.length_take_le' _ _) le_rfl
          (by rw [List.take_take, Nat.min_self, List.append_nil])
      have extended := holds.extend blocks_eq extending
        (fun last => [last.take stream.lastLength]) rfl (.inl rfl)
      rwa [List.append_nil] at extended

/-- A stream holds the first block that is put into it. -/
theorem Holds.first_block {stream : MemoryStream} {content value block : Octets} {position : Nat}
    (holds : Holds stream content position) (blocks_nil : stream.blocks = []) (value_ne : value ≠ [])
    (block_fits : value.length ≤ block.length) (block_take : block.take value.length = value) :
    Holds { stream with
        blocks := [block]
        current := [block]
        currentOffset := 0
        lastLength := value.length
        length := stream.length + value.length } (content ++ value) position := by
  have content_nil : content = [] := by rw [← holds.content_eq, blocks_nil, stored]
  have within := holds.within
  have length_eq := holds.length_eq
  rw [content_nil, List.length_nil] at within length_eq
  have value_pos := List.length_pos_iff.2 value_ne
  have block_ne : block ≠ [] := List.length_pos_iff.1 (by omega)
  have stored_eq : stored value.length [block] = value := by
    rw [← List.nil_append [block], stored_concat, block_take]
    rfl
  have filled : Filled value.length [block] := by
    refine ⟨by simpa using block_ne, fun _ => value_pos, ?_⟩
    rintro other among
    cases among
    exact block_fits
  rw [content_nil, Nat.le_zero.1 within, length_eq]
  exact
    { filled := filled
      content_eq := stored_eq
      length_eq := Nat.zero_add _
      current_suffix := List.suffix_rfl
      designates := filled.designates_start
      within := Nat.zero_le _
      remaining := by rw [stored_eq]; rfl }

/-- Data are appended behind the content, unless the end has been reached before. -/
theorem Holds.append {stream : MemoryStream} {content : Octets} {position : Nat}
    (holds : Holds stream content position) (firstBlockLength nextBlockLength : Nat)
    (value : Octets) (trim : Bool) (start : stream.blocks = [] → stream.currentOffset = 0)
    (unfinished : value = [] ∨ stream.blocks = [] ∨ position < content.length) :
    Holds (stream.append firstBlockLength nextBlockLength value trim) (content ++ value) position := by
  rw [MemoryStream.append]
  by_cases nothing : value = []
  · rw [if_pos nothing, nothing, List.append_nil]
    cases trim with
    | false => exact holds
    | true => exact holds.trimLastBlock
  rw [if_neg nothing]
  cases last_eq : stream.blocks.getLast? with
  | none =>
      have blocks_nil := List.getLast?_eq_none_iff.1 last_eq
      obtain ⟨_, block_fits, block_take⟩ := newBlock_spec firstBlockLength trim nothing
      have first := holds.first_block blocks_nil nothing block_fits block_take
      rw [← start blocks_nil] at first
      exact first
  | some last =>
      obtain ⟨earlier, blocks_eq, positive, fits⟩ := holds.last_block last_eq
      have before_end : value = [] ∨ position < content.length := by
        refine unfinished.imp_right fun possible => possible.resolve_left ?_
        rw [blocks_eq]
        exact List.append_ne_nil_of_right_ne_nil _ (List.cons_ne_nil _ _)
      dsimp only
      by_cases full : stream.lastLength = last.length
      · obtain ⟨block_ne, block_fits, block_take⟩ := newBlock_spec nextBlockLength trim nothing
        have value_eq : last ++ value = last.take stream.lastLength ++ value := by
          rw [full, List.take_length]
        rw [if_pos full]
        exact holds.extend blocks_eq (extends_further (List.take_prefix _ _) positive fits nothing
          block_ne block_fits block_take value_eq) _ rfl before_end
      rw [if_neg full]
      by_cases space : stream.lastLength + value.length ≤ last.length
      · have front_length : (last.take stream.lastLength ++ value).length =
            stream.lastLength + value.length := by
          rw [List.length_append, List.length_take_of_le fits]
        have block_length : (last.take stream.lastLength ++ value ++
            last.drop (stream.lastLength + value.length)).length = last.length := by
          rw [List.length_append, front_length, List.length_drop]
          omega
        have filled := holds.extend blocks_eq (extends_alone (Nat.add_pos_left positive _)
          (space.trans block_length.ge) block_length.le (Nat.le_add_right _ _)
          (List.take_left' front_length)) (fun last => [last.take stream.lastLength ++ value ++
            last.drop (stream.lastLength + value.length)]) rfl before_end
        rw [if_pos space]
        cases trim with
        | false => exact filled
        | true => exact filled.trimLastBlock
      · have rest_ne : value.drop (last.length - stream.lastLength) ≠ [] := by
          rw [Ne, List.drop_eq_nil_iff]
          omega
        obtain ⟨block_ne, block_fits, block_take⟩ := newBlock_spec nextBlockLength trim rest_ne
        have value_eq : last.take stream.lastLength ++
            value.take (last.length - stream.lastLength) ++
              value.drop (last.length - stream.lastLength) = last.take stream.lastLength ++ value := by
          rw [List.append_assoc, List.take_append_drop]
        have split := holds.extend blocks_eq (extends_further (List.prefix_append _ _) positive fits
          rest_ne block_ne block_fits block_take value_eq) (fun block => [block.take
            stream.lastLength ++ value.take (last.length - stream.lastLength),
              newBlock nextBlockLength trim (value.drop (last.length - stream.lastLength))]) rfl
          before_end
        rw [List.length_drop] at split
        rw [if_neg space]
        exact split

/-- An array is appended behind the content, unless the end has been reached before. -/
theorem Holds.appendAccess {stream : MemoryStream} {content : Octets} {position : Nat}
    (holds : Holds stream content position) (data : Octets)
    (unfinished : data = [] ∨ stream.blocks = [] ∨ position < content.length) :
    Holds (stream.appendAccess data) (content ++ data) position := by
  rw [MemoryStream.appendAccess]
  by_cases nothing : data = []
  · rw [if_pos nothing, nothing, List.append_nil]
    exact holds
  rw [if_neg nothing]
  cases last_eq : stream.blocks.getLast? with
  | none =>
      have blocks_nil := List.getLast?_eq_none_iff.1 last_eq
      rw [if_pos blocks_nil]
      exact holds.first_block blocks_nil nothing le_rfl List.take_length
  | some last =>
      obtain ⟨earlier, blocks_eq, positive, fits⟩ := holds.last_block last_eq
      have blocks_ne : stream.blocks ≠ [] := by
        rw [blocks_eq]
        exact List.append_ne_nil_of_right_ne_nil _ (List.cons_ne_nil _ _)
      have trimmed_eq : stream.trimLastBlock.blocks =
          earlier ++ [last.take stream.lastLength] := by
        rw [MemoryStream.trimLastBlock, replaceLast, blocks_eq, onLast_concat]
      have length_eq := List.length_take_of_le fits
      rw [if_neg blocks_ne]
      exact holds.trimLastBlock.extend trimmed_eq (extends_further
        (List.take_prefix _ _) positive length_eq.ge nothing nothing le_rfl List.take_length
        (by show _ = (last.take stream.lastLength).take stream.lastLength ++ data
            rw [List.take_take, Nat.min_self])) _ rfl
        (unfinished.imp_right fun possible => possible.resolve_left blocks_ne)

theorem Holds.reset {stream : MemoryStream} {content : Octets} {position : Nat}
    (holds : Holds stream content position) : Holds stream.reset content 0 where
  filled := holds.filled
  content_eq := holds.content_eq
  length_eq := holds.length_eq
  current_suffix := List.suffix_rfl
  designates := holds.filled.designates_start
  within := Nat.zero_le _
  remaining := by
    show (stored stream.lastLength stream.blocks).drop 0 = content.drop 0
    rw [holds.content_eq]

end MemoryStream
end Resources
end AdaWebServer

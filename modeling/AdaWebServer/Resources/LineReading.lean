import AdaWebServer.Resources.MemoryRuns
import Mathlib.Data.List.TakeWhile

/-!
# Reading a memory stream to its end

What is left of a stream is read octet by octet.  At the end nothing is read any more.
-/

namespace AdaWebServer
namespace Resources

open Http2

namespace MemoryStream

/-- The loop of `Get_Line`, which reads an octet as long as the end is not reached. -/
def getLineLoop : Nat → Text → MemoryStream → Except Exn (Text × MemoryStream)
  | 0, result, self => .ok (result, self)
  | times + 1, result, self =>
      if self.endOfFile then .ok (result, self)
      else do
        let (data, self) ← self.read 1
        match data with
        | 10 :: _ => return (result, self)
        | 13 :: _ => getLineLoop times result self
        | octet :: _ => getLineLoop times (result ++ [octet]) self
        | [] => return (result, self)

/-- `Get_Line`, which reads at most all octets of the stream. -/
def getLine (self : MemoryStream) : Except Exn (Text × MemoryStream) :=
  getLineLoop (self.length + 1) [] self

/-- A read that does not come to the end of the blocks stands in front of an octet. -/
theorem readBlocks_inside {lastLength : Nat} {blocks later : List Octets} {block data : Octets}
    {offset room position : Nat} (filled : Filled lastLength blocks)
    (done : readBlocks lastLength blocks offset room = .ok (data, block :: later, position)) :
    position < (blockData lastLength block later).length := by
  induction blocks generalizing offset room data with
  | nil => cases done
  | cons first blocks ih =>
      rw [readBlocks] at done
      split_ifs at done with _ short beyond full
      · cases done
        omega
      · cases done
      · cases done
        exact filled.tail.blockData_nonempty
      · obtain ⟨⟨more, rest⟩, read, done⟩ := bind_eq_ok_iff.mp done
        cases done
        exact ih filled.tail read

/-- The stream has the content, of which the given octets are still to be read. -/
structure Unread (stream : MemoryStream) (content unread : Octets) : Prop where
  stands : ∃ position, Stands stream ⟨content, position⟩ ∧ content.drop position = unread
  finished : unread = [] → stream.current = []

namespace Unread

variable {stream : MemoryStream} {content unread : Octets}

theorem endOfFile_iff (left : Unread stream content unread) :
    stream.endOfFile = true ↔ unread = [] := by
  obtain ⟨position, stands, rfl⟩ := left.stands
  rw [stands.holds.endOfFile_iff, List.drop_eq_nil_iff]

/-- The next octets are read. -/
theorem read (left : Unread stream content unread) {room : Nat} (positive : 0 < room) :
    ∃ next, stream.read room = .ok (unread.take room, next) ∧
      Unread next content (unread.drop room) := by
  obtain ⟨position, stands, rfl⟩ := left.stands
  have sound : stream.current = [] ∨ 0 < room ∧ stream.endOfFile = false := by
    by_cases nothing : content.drop position = []
    · exact .inl (left.finished nothing)
    · exact .inr ⟨positive, Bool.eq_false_iff.2 (mt left.endOfFile_iff.1 nothing)⟩
  obtain ⟨next, read_eq, next_stands⟩ := stands.read room sound
  have dropped : content.drop (position + ((content.drop position).take room).length) =
      (content.drop position).drop room := by
    rw [List.length_take, ← List.drop_drop]
    rcases Nat.le_total room (content.drop position).length with fits | short
    · rw [Nat.min_eq_left fits]
    · rw [Nat.min_eq_right short, List.drop_eq_nil_of_le short, List.drop_length]
  refine ⟨next, read_eq, ⟨_, next_stands, dropped⟩, fun nothing => ?_⟩
  have remaining := next_stands.holds.remaining
  rw [Content.specify] at remaining
  dsimp only at remaining
  rw [dropped, nothing, List.drop_eq_nil_iff] at remaining
  obtain ⟨⟨data, current, offset⟩, blocks_eq, next_eq⟩ := bind_eq_ok_iff.1 read_eq
  cases next_eq
  cases current with
  | nil => rfl
  | cons block later =>
      have inside := readBlocks_inside
        (stands.holds.filled.suffix stands.holds.current_suffix) blocks_eq
      rw [stored, List.length_append] at remaining
      exact absurd remaining (by dsimp only; omega)

/-- What is appended in front of the end is still to be read. -/
theorem append (left : Unread stream content unread) (firstBlockLength nextBlockLength : Nat)
    (value : Octets) (trim : Bool) (something : unread ≠ []) :
    Unread (stream.append firstBlockLength nextBlockLength value trim) (content ++ value)
      (unread ++ value) where
  stands := by
    obtain ⟨position, stands, rfl⟩ := left.stands
    have before_end : position < content.length := by
      rwa [ne_eq, List.drop_eq_nil_iff, not_le] at something
    have content_ne : content ≠ [] := List.length_pos_iff.1 (Nat.zero_lt_of_lt before_end)
    have holds := stands.holds.append firstBlockLength nextBlockLength value trim stands.start
      (.inr (.inr before_end))
    exact ⟨position, holds.stands (List.append_ne_nil_of_left_ne_nil content_ne value),
      List.drop_append_of_le_length before_end.le⟩
  finished nothing := absurd (List.append_eq_nil_iff.1 nothing).1 something

/-- All of what is appended to a new stream is still to be read. -/
theorem create_append (firstBlockLength nextBlockLength : Nat) (value : Octets) (trim : Bool)
    (something : value ≠ []) :
    Unread (MemoryStream.create.append firstBlockLength nextBlockLength value trim) value value where
  stands := by
    have holds := stands_create.holds.append firstBlockLength nextBlockLength value trim (fun _ => rfl)
      (.inr (.inl rfl))
    exact ⟨0, Holds.stands holds something, rfl⟩
  finished nothing := absurd nothing something

end Unread
end MemoryStream
end Resources
end AdaWebServer

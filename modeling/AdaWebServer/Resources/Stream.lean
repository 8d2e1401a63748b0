import AdaWebServer.Http2.Basic
import Mathlib.Data.List.Infix

/-!
# Resource streams

`Resources.Streams.Stream_Type` is an abstract type.  The operations that the server calls on it are
a class, and the behaviour that its specification documents is a second one: a stream has a content
and a position in it.
-/

namespace AdaWebServer
namespace Resources

open Http2

/-- `Resources.Streams.Stream_Type`. -/
class StreamType (Stream : Type) where
  /-- `Size`, or nothing for `Undefined_Length`. -/
  size : Stream → Option Nat
  /-- `Set_Index`. -/
  setIndex : Stream → Nat → Except Exn Stream
  /-- `Read`, into a buffer of the given length. -/
  read : Stream → Nat → Except Exn (Octets × Stream)
  /-- `End_Of_File`. -/
  endOfFile : Stream → Bool
  /-- What has been read is in the buffer. -/
  read_fits {stream after : Stream} {room : Nat} {data : Octets}
    (done : read stream room = .ok (data, after)) : data.length ≤ room

/-- A stream that does what the specification of `Stream_Type` says. -/
class Documented (Stream : Type) [StreamType Stream] where
  /-- The stream has the given content and stands behind the given number of its octets. -/
  Holds : Stream → Octets → Nat → Prop
  /-- `Set_Index` positions the stream. -/
  setIndex_within {stream : Stream} {content : Octets} {position target : Nat}
    (holds : Holds stream content position) (within : target < content.length) :
    ∃ after, StreamType.setIndex stream (target + 1) = .ok after ∧ Holds after content target
  /-- An index outside the content positions the stream at its end. -/
  setIndex_beyond {stream after : Stream} {content : Octets} {position target : Nat}
    (holds : Holds stream content position) (beyond : content.length ≤ target)
    (done : StreamType.setIndex stream (target + 1) = .ok after) :
    Holds after content content.length
  /-- `Read` gives some of the next octets. -/
  read_within {stream : Stream} {content : Octets} {position room : Nat}
    (holds : Holds stream content position) (within : position < content.length)
    (nonempty : 0 < room) :
    ∃ data after, StreamType.read stream room = .ok (data, after) ∧ data ≠ [] ∧
      data <+: content.drop position ∧ Holds after content (position + data.length)
  /-- `Read` gives nothing at the end. -/
  read_end {stream after : Stream} {content data : Octets} {room : Nat}
    (holds : Holds stream content content.length)
    (done : StreamType.read stream room = .ok (data, after)) :
    data = [] ∧ Holds after content content.length
  /-- `End_Of_File` tells whether there is more to read. -/
  endOfFile_iff {stream : Stream} {content : Octets} {position : Nat}
    (holds : Holds stream content position) :
    StreamType.endOfFile stream = true ↔ content.length ≤ position

/-- A stream of a known size, which can be positioned anywhere and fills the buffer as far as it can. -/
class Regular (Stream : Type) [StreamType Stream] [Documented Stream] : Prop where
  size_eq {stream : Stream} {content : Octets} {position : Nat}
    (holds : Documented.Holds stream content position) :
    StreamType.size stream = some content.length
  setIndex_eq {stream : Stream} {content : Octets} {position : Nat}
    (holds : Documented.Holds stream content position) (target : Nat) :
    ∃ after, StreamType.setIndex stream (target + 1) = .ok after ∧
      Documented.Holds after content (min target content.length)
  read_eq {stream : Stream} {content : Octets} {position : Nat}
    (holds : Documented.Holds stream content position) (room : Nat) :
    ∃ after, StreamType.read stream room = .ok ((content.drop position).take room, after) ∧
      Documented.Holds after content (position + ((content.drop position).take room).length)

/-! ## Files -/

/-- `Streams.Disk.Stream_Type`: a file and the index of its next octet, counted from 0. -/
structure DiskStream where
  file : Octets
  index : Nat
  deriving DecidableEq

namespace DiskStream

/-- `Size`. -/
def size (self : DiskStream) : Option Nat := some self.file.length

/-- `Set_Index`. -/
def setIndex (self : DiskStream) (target : Nat) : Except Exn DiskStream :=
  if target < 1 ∨ self.file.length < target then
    .ok { self with index := self.file.length }
  else
    .ok { self with index := target - 1 }

/-- `Read`. -/
def read (self : DiskStream) (room : Nat) : Except Exn (Octets × DiskStream) :=
  let data := (self.file.drop self.index).take room
  .ok (data, { self with index := self.index + data.length })

/-- `End_Of_File`. -/
def endOfFile (self : DiskStream) : Bool := self.file.length ≤ self.index

instance : StreamType DiskStream where
  size := size
  setIndex := setIndex
  read := read
  endOfFile := endOfFile
  read_fits := by
    rintro stream after room data ⟨⟩
    exact List.length_take_le _ _

/-- The file has the content, and its next octet is the one behind the position. -/
def Holds (self : DiskStream) (content : Octets) (position : Nat) : Prop :=
  self.file = content ∧ self.index = position

instance : Documented DiskStream where
  Holds := Holds
  setIndex_within := by
    rintro stream content position target ⟨rfl, -⟩ within
    refine ⟨{ stream with index := target }, ?_, rfl, rfl⟩
    exact if_neg (by omega)
  setIndex_beyond := by
    rintro stream after content position target ⟨rfl, -⟩ beyond done
    have outside : stream.setIndex (target + 1) = .ok { stream with index := stream.file.length } :=
      if_pos (Or.inr (by omega))
    obtain rfl := Except.ok.inj (outside.symm.trans done)
    exact ⟨rfl, rfl⟩
  read_within := by
    rintro stream content position room ⟨rfl, rfl⟩ within nonempty
    refine ⟨_, _, rfl, ?_, List.take_prefix _ _, rfl, rfl⟩
    rw [← List.length_pos_iff, List.length_take, List.length_drop]
    omega
  read_end := by
    rintro stream after content data room ⟨rfl, index_eq⟩ done
    cases done
    simp [Holds, index_eq]
  endOfFile_iff := by
    rintro stream content position ⟨rfl, rfl⟩
    exact decide_eq_true_iff

instance : Regular DiskStream where
  size_eq := by
    rintro stream content position ⟨rfl, -⟩
    rfl
  setIndex_eq := by
    rintro stream content position ⟨rfl, -⟩ target
    by_cases within : target < stream.file.length
    · refine ⟨{ stream with index := target }, if_neg (by omega), rfl, ?_⟩
      exact (Nat.min_eq_left within.le).symm
    · refine ⟨{ stream with index := stream.file.length }, if_pos (Or.inr (by omega)), rfl, ?_⟩
      exact (Nat.min_eq_right (Nat.le_of_not_lt within)).symm
  read_eq := by
    rintro stream content position ⟨rfl, rfl⟩ room
    exact ⟨_, rfl, rfl, rfl⟩

end DiskStream
end Resources
end AdaWebServer

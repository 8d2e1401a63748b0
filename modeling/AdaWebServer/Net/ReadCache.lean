import Mathlib.Data.List.TakeDrop
import AdaWebServer.Http2.Basic

/-!
# The read cache of a socket

The octets that have been received but not read stand in a part of a fixed array, between two indexes.
-/

namespace AdaWebServer
namespace Net

open Http2 (Octet Octets)

/-- `R_Cache_Size`. -/
def rCacheSize : Nat := 4096

/-- `Read_Cache`, with indexes that stay within the array. -/
structure ReadCache where
  buffer : Octets
  first : Nat
  last : Nat
  buffer_length : buffer.length = rCacheSize
  first_pos : 1 ≤ first
  first_le : first ≤ last + 1
  last_le : last ≤ rCacheSize

namespace ReadCache

/-- A cache as it is created. -/
def create : ReadCache where
  buffer := List.replicate rCacheSize 0
  first := 1
  last := 0
  buffer_length := List.length_replicate
  first_pos := le_rfl
  first_le := le_rfl
  last_le := Nat.zero_le _

/-- `C.Buffer (From .. To)`. -/
def slice (self : ReadCache) (start stop : Nat) : Octets :=
  (self.buffer.take stop).drop (start - 1)

/-- The octets that have not been read. -/
def content (self : ReadCache) : Octets := self.slice self.first self.last

/-- `Is_Empty`. -/
def IsEmpty (self : ReadCache) : Prop := self.last < self.first

instance (self : ReadCache) : Decidable self.IsEmpty :=
  inferInstanceAs (Decidable (self.last < self.first))

/-- What has been received replaces what was in the cache. -/
def fill (self : ReadCache) (received : Octets) (fits : received.length ≤ rCacheSize) :
    ReadCache where
  buffer := received ++ self.buffer.drop received.length
  first := 1
  last := received.length
  buffer_length := by
    rw [List.length_append, List.length_drop, self.buffer_length]
    omega
  first_pos := le_rfl
  first_le := by omega
  last_le := fits

/-- The octet that is read next. -/
def next (self : ReadCache) (nonempty : ¬self.IsEmpty) : Octet :=
  self.buffer.get ⟨self.first - 1, by
    have in_range := self.first_pos
    have bounded := self.last_le
    rw [IsEmpty] at nonempty
    rw [self.buffer_length]
    omega⟩

/-- `C.First` moves behind some octets. -/
def advance (self : ReadCache) (count : Nat) (enough : self.first + count ≤ self.last + 1) :
    ReadCache where
  buffer := self.buffer
  first := self.first + count
  last := self.last
  buffer_length := self.buffer_length
  first_pos := Nat.le_add_right_of_le self.first_pos
  first_le := enough
  last_le := self.last_le

/-- The last index of what `Read_Buffer` takes into a buffer of the given size. -/
def readLast (self : ReadCache) (size : Nat) : Nat := min self.last (self.first + size - 1)

/-- `C.First` moves behind what `Read_Buffer` takes. -/
def afterRead (self : ReadCache) (size : Nat) : ReadCache where
  buffer := self.buffer
  first := self.readLast size + 1
  last := self.last
  buffer_length := self.buffer_length
  first_pos := Nat.le_add_left 1 _
  first_le := Nat.succ_le_succ (min_le_left _ _)
  last_le := self.last_le

/-- The cache is emptied. -/
def clear (self : ReadCache) : ReadCache where
  buffer := self.buffer
  first := 1
  last := 0
  buffer_length := self.buffer_length
  first_pos := le_rfl
  first_le := le_rfl
  last_le := Nat.zero_le _

variable (self : ReadCache)

@[simp]
theorem content_length : self.content.length = self.last + 1 - self.first := by
  have in_range := self.first_pos
  have bounded := self.last_le
  rw [content, slice, List.length_drop, List.length_take, self.buffer_length]
  omega

theorem isEmpty_iff : self.IsEmpty ↔ self.content = [] := by
  rw [← List.length_eq_zero_iff, content_length, IsEmpty]
  omega

@[simp]
theorem content_create : create.content = [] := rfl

@[simp]
theorem content_clear : self.clear.content = [] := rfl

@[simp]
theorem content_fill (received : Octets) (fits : received.length ≤ rCacheSize) :
    (self.fill received fits).content = received := by
  show ((received ++ _).take received.length).drop 0 = received
  rw [List.drop_zero, List.take_left]

theorem content_eq_cons (nonempty : ¬self.IsEmpty) (enough : self.first + 1 ≤ self.last + 1) :
    self.content = self.next nonempty :: (self.advance 1 enough).content := by
  have in_range := self.first_pos
  have index_lt : self.first - 1 < (self.buffer.take self.last).length := by
    rw [List.length_take, self.buffer_length]
    have := self.last_le
    omega
  have further : self.first - 1 + 1 = self.first + 1 - 1 := by omega
  rw [content, slice, List.drop_eq_getElem_cons index_lt, List.getElem_take, further]
  rfl

@[simp]
theorem content_advance (count : Nat) (enough : self.first + count ≤ self.last + 1) :
    (self.advance count enough).content = self.content.drop count := by
  have in_range := self.first_pos
  have further : self.first + count - 1 = self.first - 1 + count := by omega
  show (self.buffer.take self.last).drop (self.first + count - 1) = _
  rw [content, slice, List.drop_drop, further]

theorem slice_first {stop : Nat} (within : stop ≤ self.last) :
    self.slice self.first stop = self.content.take (stop + 1 - self.first) := by
  have in_range := self.first_pos
  rw [content, slice, slice, List.take_drop, List.take_take]
  by_cases nonempty : self.first ≤ stop + 1
  · have stop_eq : min (self.first - 1 + (stop + 1 - self.first)) self.last = stop := by omega
    rw [stop_eq]
  · rw [List.drop_eq_nil_of_le, List.drop_eq_nil_of_le]
    · rw [List.length_take]
      omega
    · rw [List.length_take]
      omega

/-- `Read_Buffer` takes the front of what has not been read. -/
theorem slice_readLast (size : Nat) :
    self.slice self.first (self.readLast size) = self.content.take size := by
  have in_range := self.first_pos
  have within : self.readLast size ≤ self.last := min_le_left _ _
  rw [slice_first self within, List.take_eq_take_iff, content_length, readLast]
  omega

@[simp]
theorem content_afterRead (size : Nat) : (self.afterRead size).content = self.content.drop size := by
  have in_range := self.first_pos
  have ordered := self.first_le
  by_cases covered : self.content.length ≤ size
  · rw [List.drop_eq_nil_of_le covered, ← isEmpty_iff]
    rw [content_length] at covered
    show self.last < self.readLast size + 1
    rw [readLast]
    omega
  · rw [content_length, not_le] at covered
    have last_eq : self.readLast size + 1 - 1 = self.first - 1 + size := by
      rw [readLast]
      omega
    show (self.buffer.take self.last).drop (self.readLast size + 1 - 1) = _
    rw [last_eq, content, slice, List.drop_drop]

end ReadCache
end Net
end AdaWebServer

import AdaWebServer.Http2.Frame
import Mathlib.Data.List.Induction

/-!
# Frames on the wire

A byte stream is a sequence of well-delimited frames, each a header of nine octets and its payload.
`Frame.Read` takes the header, and then all of the payload or none of it.
-/

namespace AdaWebServer
namespace Http2

/-! ## Numbers -/

@[simp]
theorem octetsOf_length (count number : Nat) : (octetsOf count number).length = count := by
  induction count generalizing number with
  | zero => rfl
  | succ count ih => simp [octetsOf, ih]

theorem bigEndian_append_singleton (octets : Octets) (octet : Octet) :
    bigEndian (octets ++ [octet]) = bigEndian octets * 256 + octet.toNat := by
  simp [bigEndian]

theorem bigEndian_octetsOf (count number : Nat) :
    bigEndian (octetsOf count number) = number % 256 ^ count := by
  induction count generalizing number with
  | zero => simp [octetsOf, bigEndian, Nat.mod_one]
  | succ count ih =>
      have low : (UInt8.ofNat number).toNat = number % 256 := UInt8.toNat_ofNat'
      have parts := Nat.mod_mul (x := number) (a := 256) (b := 256 ^ count)
      rw [octetsOf, bigEndian_append_singleton, ih, low, Nat.pow_succ', parts]
      ring

theorem bigEndian_octetsOf_of_lt {count number : Nat} (small : number < 256 ^ count) :
    bigEndian (octetsOf count number) = number := by
  rw [bigEndian_octetsOf, Nat.mod_eq_of_lt small]

theorem octetsOf_bigEndian (octets : Octets) : octetsOf octets.length (bigEndian octets) = octets := by
  induction octets using List.reverseRecOn with
  | nil => rfl
  | append_singleton octets octet ih =>
      have small := octet.toNat_lt
      have high : (bigEndian octets * 256 + octet.toNat) / 256 = bigEndian octets := by omega
      have low : UInt8.ofNat (bigEndian octets * 256 + octet.toNat) = octet := by
        rw [← UInt8.toNat_inj, UInt8.toNat_ofNat']
        omega
      rw [bigEndian_append_singleton, List.length_append, List.length_singleton, octetsOf, high, low,
        ih]

/-! ## Frames -/

/-- A frame of a byte stream. -/
structure WireFrame where
  kind : Octet
  flags : Octet
  /-- The reserved bit in front of the stream identifier. -/
  reserved : Bool
  streamId : Nat
  payload : Octets
  streamId_lt : streamId < 2 ^ 31
  length_lt : payload.length < 2 ^ 24

namespace WireFrame

/-- The stream identifier with the reserved bit. -/
def word (self : WireFrame) : Nat := (if self.reserved then 2 ^ 31 else 0) + self.streamId

/-- The frame header. -/
def header (self : WireFrame) : Octets :=
  octetsOf 3 self.payload.length ++ self.kind :: self.flags :: octetsOf 4 self.word

/-- The octets of the frame. -/
def octets (self : WireFrame) : Octets := self.header ++ self.payload

@[simp]
theorem header_length (self : WireFrame) : self.header.length = 9 := by
  simp [header]

theorem header_take (self : WireFrame) :
    bigEndian (self.header.take 3) = self.payload.length := by
  have first : self.header.take 3 = octetsOf 3 self.payload.length :=
    List.take_left' (octetsOf_length 3 _)
  rw [first, bigEndian_octetsOf_of_lt self.length_lt]

theorem header_kind (self : WireFrame) : self.header.getD 3 0 = self.kind := by
  rw [header, List.getD_eq_getElem?_getD, List.getElem?_append_right (by simp)]
  simp

theorem header_flags (self : WireFrame) : self.header.getD 4 0 = self.flags := by
  rw [header, List.getD_eq_getElem?_getD, List.getElem?_append_right (by simp)]
  simp

theorem header_streamId (self : WireFrame) :
    bigEndian (self.header.drop 5) % 2 ^ 31 = self.streamId := by
  have small := self.streamId_lt
  have last : self.header.drop 5 = octetsOf 4 self.word := by
    have shape : self.header =
        (octetsOf 3 self.payload.length ++ [self.kind, self.flags]) ++ octetsOf 4 self.word := by
      simp [header]
    rw [shape]
    exact List.drop_left' (by simp)
  have modulus : 256 ^ 4 = 2 ^ 32 := rfl
  rw [last, bigEndian_octetsOf, word, modulus]
  split <;> omega

/-- The frame of which only the header has been read. -/
def unread (self : WireFrame) : Frame :=
  ⟨self.payload.length, self.flags, self.streamId, .unread (.ofOctet self.kind)⟩

/-- The frame with the payload of a kind other than `K_Settings`. -/
def toFrame (self : WireFrame) : Frame :=
  ⟨self.payload.length, self.flags, self.streamId, Frame.payloadOf (.ofOctet self.kind) self.payload⟩

private theorem readOctets_append (first rest : Octets) :
    Frame.readOctets first.length (first ++ rest) = .ok (first, rest) := by
  simp [Frame.readOctets]

/-- `Frame.Read` on a well-delimited frame. -/
theorem read_octets (self : WireFrame) (settings : Connection) (rest : Octets) :
    Frame.read settings (self.octets ++ rest) =
      (Frame.validateHeader settings (.ofOctet self.kind) self.payload.length >>= fun error =>
        if error ≠ .noError then
          .ok (self.unread, self.payload ++ rest)
        else if Kind.ofOctet self.kind = .settings then
          Frame.readSettings self.payload.length self.flags self.streamId (self.payload ++ rest)
        else
          .ok (self.toFrame, rest)) := by
  have taken := readOctets_append self.header (self.payload ++ rest)
  rw [header_length, ← List.append_assoc] at taken
  rw [Frame.read, octets, taken, ok_bind]
  simp only [header_take, header_kind, header_flags, header_streamId, readOctets_append, ok_bind]
  rfl

/-- `Frame.Read` on a frame that passes the check of its header, other than `K_Settings`. -/
theorem read_valid {self : WireFrame} {settings : Connection}
    (valid : Frame.validateHeader settings (.ofOctet self.kind) self.payload.length = .ok .noError)
    (kind : Kind.ofOctet self.kind ≠ .settings) (rest : Octets) :
    Frame.read settings (self.octets ++ rest) = .ok (self.toFrame, rest) := by
  rw [read_octets, valid, ok_bind, if_neg (by simp), if_neg kind]

theorem connection_lt : 0 < 2 ^ 31 := by decide

theorem first_lt : 1 < 2 ^ 31 := by decide

theorem nothing_lt : ([] : Octets).length < 2 ^ 24 := by decide

/-- A settings frame without settings. -/
def emptySettings : WireFrame := ⟨4, 0, false, 0, [], connection_lt, nothing_lt⟩

end WireFrame

end Http2
end AdaWebServer

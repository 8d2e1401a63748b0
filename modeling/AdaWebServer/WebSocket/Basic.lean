import AdaWebServer.Foundations.Chunks
import AdaWebServer.Foundations.RepeatingKey
import AdaWebServer.Http2.Basic

/-!
# WebSocket objects and frame headers

A `WebSocket` reads from a socket that delivers octets in chunks and writes frames.  Random masks
and the memory behind a converted string are not determined by the object; each operation takes
what it finds there.
-/

namespace AdaWebServer
namespace WebSocket

open Http2 (Octet Octets Exn bigEndian octetsOf naturalLast)

/-- `Kind_Type`, the kind of a data frame. -/
inductive Kind where
  | unknown
  | connectionOpen
  | text
  | binary
  | ping
  | pong
  | connectionClose
  deriving DecidableEq, Repr

/-- `Opcode`. -/
abbrev Opcode := Fin 16

scoped instance opcodes_neZero : NeZero 16 := ⟨by decide⟩

scoped instance lengths_neZero : NeZero 128 := ⟨by decide⟩

theorem lt_of_small {length : Nat} (small : length ≤ 125) : length < 128 := by omega

/-- `O_Continuation`. -/
def oContinuation : Opcode := 0x0

/-- `O_Text`. -/
def oText : Opcode := 0x1

/-- `O_Binary`. -/
def oBinary : Opcode := 0x2

/-- `O_Connection_Close`. -/
def oConnectionClose : Opcode := 0x8

/-- `O_Ping`. -/
def oPing : Opcode := 0x9

/-- `O_Pong`. -/
def oPong : Opcode := 0xA

/-! ## Masks -/

/-- `Masking_Key`. -/
abbrev MaskingKey := Fin 4 → Octet

namespace MaskingKey

/-- The octets of the key as they are sent. -/
def octets (key : MaskingKey) : Octets := List.ofFn key

/-- The key with the given octets. -/
def ofOctets (octets : Octets) : MaskingKey := fun position => octets.getD position 0

/-- The octet of the key for a position in the payload. -/
def at' (key : MaskingKey) (position : Nat) : Octet := key (Fin.ofNat 4 position)

/-- Mask or unmask the octets from a position in the payload on. -/
def mask (key : MaskingKey) : Nat → Octets → Octets :=
  RepeatingKey.apply (fun octet part => octet ^^^ part) key.at'

@[simp]
theorem octets_length (key : MaskingKey) : key.octets.length = 4 := List.length_ofFn

theorem ofOctets_octets (key : MaskingKey) : ofOctets key.octets = key := by
  funext position
  rw [ofOctets, octets, List.getD_eq_getElem?_getD, List.getElem?_ofFn, dif_pos position.isLt]
  rfl

@[simp]
theorem mask_length (key : MaskingKey) (position : Nat) (octets : Octets) :
    (key.mask position octets).length = octets.length :=
  RepeatingKey.apply_length position octets

theorem mask_append (key : MaskingKey) (position : Nat) (first second : Octets) :
    key.mask position (first ++ second) =
      key.mask position first ++ key.mask (position + first.length) second :=
  RepeatingKey.apply_append position first second

theorem mask_mask (key : MaskingKey) (position : Nat) (octets : Octets) :
    key.mask position (key.mask position octets) = octets :=
  RepeatingKey.apply_apply (fun octet part => by rw [UInt8.xor_assoc, UInt8.xor_self,
    UInt8.xor_zero]) position octets

theorem mask_add_four (key : MaskingKey) (position : Nat) (octets : Octets) :
    key.mask (position + 4) octets = key.mask position octets := by
  refine RepeatingKey.apply_of_periodic (fun position => congrArg key ?_) position octets
  simp [Fin.ext_iff]

end MaskingKey

/-! ## Frame headers -/

/-- `Frame_Header`. -/
structure Header where
  fin : Bool
  rsv1 : Bool
  rsv2 : Bool
  rsv3 : Bool
  opcd : Opcode
  mask : Bool
  payloadLength : Fin 128
  deriving DecidableEq, Repr

namespace Header

/-- The first octet of a header. -/
def firstOctet (fin rsv1 rsv2 rsv3 : Bool) (opcd : Opcode) : Octet :=
  UInt8.ofNat (128 * fin.toNat + 64 * rsv1.toNat + 32 * rsv2.toNat + 16 * rsv3.toNat + opcd)

/-- The second octet of a header. -/
def secondOctet (mask : Bool) (payloadLength : Fin 128) : Octet :=
  UInt8.ofNat (128 * mask.toNat + payloadLength)

/-- The octets of a header. -/
def octets (header : Header) : Octets :=
  [firstOctet header.fin header.rsv1 header.rsv2 header.rsv3 header.opcd,
    secondOctet header.mask header.payloadLength]

/-- The bit of an octet with the given weight is set. -/
def bit (octet : Octet) (weight : Nat) : Bool := octet.toNat / weight % 2 = 1

/-- The header over two octets. -/
def ofOctets (octets : Octets) : Header :=
  let first := octets.getD 0 0
  let second := octets.getD 1 0
  ⟨bit first 128, bit first 64, bit first 32, bit first 16, Fin.ofNat 16 first.toNat,
    bit second 128, Fin.ofNat 128 second.toNat⟩

private theorem first_read : ∀ (fin rsv1 rsv2 rsv3 : Bool) (opcd : Opcode),
    let first := firstOctet fin rsv1 rsv2 rsv3 opcd
    bit first 128 = fin ∧ bit first 64 = rsv1 ∧ bit first 32 = rsv2 ∧ bit first 16 = rsv3 ∧
      Fin.ofNat 16 first.toNat = opcd := by
  decide +kernel

private theorem second_read : ∀ (mask : Bool) (payloadLength : Fin 128),
    let second := secondOctet mask payloadLength
    bit second 128 = mask ∧ Fin.ofNat 128 second.toNat = payloadLength := by
  decide +kernel

theorem ofOctets_octets (header : Header) : ofOctets header.octets = header := by
  obtain ⟨fin, rsv1, rsv2, rsv3, opcd⟩ :=
    first_read header.fin header.rsv1 header.rsv2 header.rsv3 header.opcd
  obtain ⟨mask, payloadLength⟩ := second_read header.mask header.payloadLength
  cases header
  simp only [ofOctets, octets, List.getD_cons_zero, List.getD_cons_succ, fin, rsv1, rsv2, rsv3,
    opcd, mask, payloadLength]

@[simp]
theorem octets_length (header : Header) : header.octets.length = 2 := rfl

end Header

end WebSocket
end AdaWebServer

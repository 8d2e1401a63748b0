import AdaWebServer.Foundations.PrefixInteger
import AdaWebServer.Http2.Hpack.HuffmanCode
import AdaWebServer.Http2.Hpack.Table

/-!
# Header blocks according to RFC 7541

A header block is a sequence of representations.  This file states how they are written as octets
and which header list a decoder makes of them whose dynamic table has a maximum size that only the
size updates of the encoder change, up to the limit that the decoder has announced.
-/

namespace AdaWebServer
namespace Http2
namespace Hpack
namespace Rfc7541

/-! ## Representations -/

/-- A string literal (5.2). -/
structure StringLiteral where
  /-- The string is Huffman coded. -/
  huffman : Bool
  value : Text
  deriving DecidableEq

/-- The name of a literal header field. -/
inductive NameRef where
  /-- The name of an entry. -/
  | index (index : Nat)
  /-- A name that is not in the tables. -/
  | new (name : StringLiteral)
  deriving DecidableEq

/-- How a literal header field treats the dynamic table (6.2). -/
inductive Indexing where
  | incremental
  | without
  | never
  deriving DecidableEq

/-- A representation (6). -/
inductive Representation where
  /-- Indexed header field. -/
  | indexed (index : Nat)
  /-- Literal header field. -/
  | literal (indexing : Indexing) (name : NameRef) (value : StringLiteral)
  /-- Dynamic table size update. -/
  | sizeUpdate (size : Nat)
  deriving DecidableEq

/-! ## Octets -/

/-- Octets of a string as they are sent. -/
def StringLiteral.payload (self : StringLiteral) : Octets :=
  if self.huffman then Huffman.coded self.value else self.value

/-- Flag bits of a string literal. -/
def StringLiteral.flags (self : StringLiteral) : Octet := if self.huffman then 0x80 else 0

/-- Octets of a string literal. -/
def StringLiteral.octets (self : StringLiteral) : Octets :=
  PrefixInteger.encode 7 self.flags.toNat self.payload.length ++ self.payload

/-- The index that stands for a name, 0 when the name follows. -/
def NameRef.position : NameRef → Nat
  | .index position => position
  | .new _ => 0

/-- Octets of a name that follows. -/
def NameRef.octets : NameRef → Octets
  | .index _ => []
  | .new name => name.octets

/-- Number of bits of the index of a literal header field. -/
def Indexing.width : Indexing → Nat
  | incremental => 6
  | without => 4
  | never => 4

/-- Flag bits of a literal header field. -/
def Indexing.flags : Indexing → Octet
  | incremental => 0x40
  | without => 0
  | never => 0x10

/-- Octets of a representation. -/
def Representation.octets : Representation → Octets
  | indexed index => PrefixInteger.encode 7 0x80 index
  | literal indexing name value =>
      PrefixInteger.encode indexing.width indexing.flags.toNat name.position ++
        (name.octets ++ value.octets)
  | sizeUpdate size => PrefixInteger.encode 5 0x20 size

/-- Octets of a header block. -/
def blockOctets (block : List Representation) : Octets := block.flatMap Representation.octets

/-! ## Decoding -/

/-- A header field. -/
abbrev Field := Text × Text

/-- Size of an entry (4.1). -/
def entrySize (entry : Field) : Nat := entry.1.length + entry.2.length + 32

/-- The static table (appendix A). -/
def staticTable : List Field := staticItems.map fun item => (text item.1, text item.2)

/-- Decoding context. -/
structure Decoder where
  /-- Entries of the dynamic table, oldest first. -/
  entries : List Field
  /-- Maximum size of the dynamic table. -/
  maxSize : Nat
  deriving DecidableEq

namespace Decoder

/-- The entry at an index of the address space (2.3.3). -/
def lookup (self : Decoder) (index : Nat) : Option Field :=
  if index = 0 then none
  else if index ≤ staticTable.length then staticTable[index - 1]?
  else self.entries.reverse[index - staticTable.length - 1]?

/-- Change the maximum size, evicting entries (4.3). -/
def resize (self : Decoder) (size : Nat) : Decoder where
  entries := WeightedQueue.trim entrySize size self.entries
  maxSize := size

/-- Insert an entry, evicting others (4.4). -/
def insert (self : Decoder) (entry : Field) : Decoder where
  entries := WeightedQueue.trim entrySize self.maxSize (self.entries ++ [entry])
  maxSize := self.maxSize

/-- The name of a literal header field. -/
def nameOf (self : Decoder) : NameRef → Option Text
  | .index index => (self.lookup index).map Prod.fst
  | .new name => some name.value

/-- Context after a literal header field. -/
def index (self : Decoder) : Indexing → Field → Decoder
  | .incremental, field => self.insert field
  | _, _ => self

/-- Decode a header block, in which size updates come first and do not pass the limit. -/
def decode (limit : Nat) : Decoder → Bool → List Representation → Option (Decoder × List Field)
  | self, _, [] => some (self, [])
  | self, started, .sizeUpdate size :: block =>
      if started = false ∧ size ≤ limit then decode limit (self.resize size) false block else none
  | self, _, .indexed index :: block => do
      let field ← self.lookup index
      let (after, fields) ← decode limit self true block
      return (after, field :: fields)
  | self, _, .literal indexing name value :: block => do
      let name ← self.nameOf name
      let (after, fields) ← decode limit (self.index indexing (name, value.value)) true block
      return (after, (name, value.value) :: fields)

end Decoder
end Rfc7541
end Hpack
end Http2
end AdaWebServer

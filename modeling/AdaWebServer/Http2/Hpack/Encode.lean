import AdaWebServer.Foundations.PrefixInteger
import AdaWebServer.Http2.Hpack.Decode

/-!
# HPACK encoding

`Encode` looks every header up in the tables and sends an index, an index and a value, or a name
and a value.
-/

namespace AdaWebServer
namespace Http2
namespace Hpack

namespace Encode

-- The length of the largest local array of octets that fits on the stack of the task.
variable (stack : Nat)

/-- `Send_Integer`: encode a `Positive` on `n` bits below the given flag bits. -/
def sendInteger (i : Nat) (flags : Octet) (n : Nat) : Except Exn Octets := do
  let v ← positive i
  let mask := 2 ^ n - 1
  if v < mask then
    return [flags ||| UInt8.ofNat v]
  else
    return (flags ||| UInt8.ofNat mask) :: PrefixInteger.continuation (v - mask)

/-- `Send`: a string literal, Huffman coded when this is shorter. -/
def send (str : Text) : Except Exn Octets := do
  let he ← Huffman.encodeOn stack str
  if he.length < str.length then
    let length ← sendInteger he.length 0x80 7
    return length ++ he
  else
    let length ← sendInteger str.length 0 7
    return length ++ str

/-- One turn of the loop of `Encode`. -/
def header (settings : Connection) (table : DynamicTable) (name value : Text) :
    Except Exn (Octets × DynamicTable) := do
  let (index, both, table) ← table.getNameValueIndex settings name value
  if index = 0 then
    let nameLiteral ← send stack name
    let valueLiteral ← send stack value
    return (0x40 :: nameLiteral ++ valueLiteral, table)
  else if both then
    let octets ← sendInteger index 0x80 7
    return (octets, table)
  else
    let octets ← sendInteger index 0x40 6
    let table ← table.insert settings name value
    if value ≠ [] then
      let valueLiteral ← send stack value
      return (octets ++ valueLiteral, table)
    else
      return (octets, table)

end Encode

/-- `Encode`: the octets of a header block, with the table it leaves. -/
def encode (stack : Nat) (settings : Connection) (table : DynamicTable) :
    Headers → Except Exn (Octets × DynamicTable)
  | [] => .ok ([], table)
  | (name, value) :: headers => do
      let (octets, table) ← Encode.header stack settings table name value
      let (rest, table) ← encode stack settings table headers
      return (octets ++ rest, table)

end Hpack
end Http2
end AdaWebServer

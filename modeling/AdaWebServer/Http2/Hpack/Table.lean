import AdaWebServer.Foundations.WeightedQueue
import AdaWebServer.Http2.Connection
import Mathlib.Data.List.AList

/-!
# The HPACK tables

The static table, and the dynamic table with its three coupled parts: the vector of entries with
the oldest first, the map from names and name-value pairs to ranks, and the counters.
-/

namespace AdaWebServer
namespace Http2
namespace Hpack

/-- `Name_Value`; the length of a name is `Positive`. -/
structure NameValue where
  name : Text
  value : Text
  name_ne : name ≠ []
  deriving DecidableEq

/-- Size of an entry, `Name'Length + Value'Length + 32`. -/
def NameValue.size (self : NameValue) : Nat := self.name.length + self.value.length + 32

/-- Build an entry, checking the length of its name. -/
def nameValue (name value : Text) : Except Exn NameValue :=
  if name_ne : name ≠ [] then .ok ⟨name, value, name_ne⟩ else .error .constraintError

/-- `NV_Size`. -/
def nvSize (nv : NameValue) : Except Exn Nat := positive nv.size

/-- `NV_Index.Map`. -/
abbrev NameIndex := AList fun _ : Text => Nat

/-- Key of a pair, `Name & '=' & Value`. -/
def pairKey (name value : Text) : Text := name ++ 61 :: value

/-- Keys under which an entry is found. -/
def NameValue.keys (self : NameValue) : List Text :=
  if self.value = [] then [self.name] else [self.name, pairKey self.name self.value]

/-- Record the name of an entry, and the pair when it has a value. -/
def includeKeys (tNI : NameIndex) (nv : NameValue) (index : Nat) : NameIndex :=
  let named := tNI.insert nv.name index
  if nv.value ≠ [] then named.insert (pairKey nv.name nv.value) index else named

/-- Search with the value, if any, then with the name only; the flag is `Both`. -/
def findIndex (tNI : NameIndex) (name value : Text) : Option (Nat × Bool) :=
  match if value ≠ [] then tNI.lookup (pairKey name value) else none with
  | some index => some (index, true)
  | none => (tNI.lookup name).map (·, false)

/-! ## The static table -/

/-- `Static_Table_Size`. -/
def staticTableSize : Nat := 61

/-- `Static_Table`. -/
structure StaticTable where
  tIN : List NameValue
  tNI : NameIndex

/-- `Insert_Static`. -/
def insertStatic (self : StaticTable) (item : String × String) : Except Exn StaticTable := do
  let nv ← nameValue (text item.1) (text item.2)
  return { tIN := self.tIN ++ [nv], tNI := includeKeys self.tNI nv (self.tIN.length + 1) }

/-- Arguments of the calls of `Insert_Static`. -/
def staticItems : List (String × String) :=
  [(":authority", ""), (":method", "GET"), (":method", "POST"), (":path", "/"),
    (":path", "/index.html"), (":scheme", "http"), (":scheme", "https"), (":status", "200"),
    (":status", "204"), (":status", "206"), (":status", "304"), (":status", "400"),
    (":status", "404"), (":status", "500"), ("accept-charset", ""),
    ("accept-encoding", "gzip, deflate"), ("accept-language", ""), ("accept-ranges", ""),
    ("accept", ""), ("access-control-allow-origin", ""), ("age", ""), ("allow", ""),
    ("authorization", ""), ("cache-control", ""), ("content-disposition", ""),
    ("content-encoding", ""), ("content-language", ""), ("content-length", ""),
    ("content-location", ""), ("content-range", ""), ("content-type", ""), ("cookie", ""),
    ("date", ""), ("etag", ""), ("expect", ""), ("expires", ""), ("from", ""), ("host", ""),
    ("if-match", ""), ("if-modified-since", ""), ("if-none-match", ""), ("if-range", ""),
    ("if-unmodified-since", ""), ("last-modified", ""), ("link", ""), ("location", ""),
    ("max-forwards", ""), ("proxy-authenticate", ""), ("proxy-authorization", ""), ("range", ""),
    ("referer", ""), ("refresh", ""), ("retry-after", ""), ("server", ""), ("set-cookie", ""),
    ("strict-transport-security", ""), ("transfer-encoding", ""), ("user-agent", ""),
    ("vary", ""), ("via", ""), ("www-authenticate", "")]

/-- `Static`, filled when the package is elaborated. -/
def static : StaticTable :=
  match staticItems.foldlM insertStatic ⟨[], ∅⟩ with
  | .ok table => table
  | .error _ => ⟨[], ∅⟩

/-! ## The dynamic table -/

/-- `Dynamic_Table`. -/
structure DynamicTable where
  /-- Entries, oldest first. -/
  tIN : List NameValue
  /-- Rank recorded for each name and each pair. -/
  tNI : NameIndex
  /-- Size in octets. -/
  size : Nat
  /-- Number of entries. -/
  length : Nat
  /-- Rank of the last entry. -/
  rank : Nat
  deriving DecidableEq

namespace DynamicTable

/-- The table before any insertion. -/
def empty : DynamicTable where
  tIN := []
  tNI := ∅
  size := 0
  length := 0
  rank := 0

/-- `D_Index`. -/
def dIndex (self : DynamicTable) (index : Nat) : Nat := self.length + staticTableSize + 1 - index

/-- `T.T_IN (Index)`. -/
def entryAt (tIN : List NameValue) (index : Nat) : Except Exn NameValue :=
  match tIN[index - 1]? with
  | some nv => .ok nv
  | none => .error .constraintError

/-- Message of an index beyond the end of the table. -/
def wrongIndex (self : DynamicTable) (what : String) (index : Nat) : String :=
  "wrong " ++ what ++ " index " ++ toString index ++ " > " ++
    toString (staticTableSize + self.length)

/-- The entry at an index of the static or the dynamic table. -/
def entry (self : DynamicTable) (what : String) (index : Nat) : Except Exn NameValue :=
  if index ≤ staticTableSize then
    entryAt static.tIN index
  else if index - staticTableSize ≤ self.length then
    entryAt self.tIN (self.dIndex index)
  else
    raiseProtocolError .protocolError (self.wrongIndex what index)

/-- `Get_Name`. -/
def getName (self : DynamicTable) (index : Nat) : Except Exn Text := do
  let nv ← self.entry "name" index
  return nv.name

/-- `Get_Name_Value`. -/
def getNameValue (self : DynamicTable) (index : Nat) : Except Exn NameValue :=
  self.entry "name-value" index

/-- `Clean_Up`: remove the oldest entries while the table is too large. -/
def cleanUp (maxSize : Nat) : List NameValue → DynamicTable → Except Exn DynamicTable
  | tIN, self =>
      if maxSize < self.size then
        match tIN with
        | [] => .error .constraintError
        | item :: rest => do
            let itemSize ← nvSize item
            let size ← naturalSub self.size itemSize
            let length ← naturalSub self.length 1
            cleanUp maxSize rest
              { self with
                tIN := rest
                size
                length
                tNI := (self.tNI.erase item.name).erase (pairKey item.name item.value) }
      else
        .ok self

/-- Count and append an entry, without regard to the maximum size. -/
def append (self : DynamicTable) (item : NameValue) : Except Exn DynamicTable := do
  let itemSize ← nvSize item
  let size ← natural (self.size + itemSize)
  let length ← natural (self.length + 1)
  let rank ← natural (self.rank + 1)
  return { tIN := self.tIN ++ [item], tNI := includeKeys self.tNI item rank, size, length, rank }

/-- `Insert`. -/
def insert (self : DynamicTable) (settings : Connection) (name value : Text) :
    Except Exn DynamicTable := do
  let item ← nameValue (toLower name) value
  let appended ← self.append item
  cleanUp settings.dynamicHeaderTableSize appended.tIN appended

/-- Index of the entry with the given rank. -/
def indexOfRank (self : DynamicTable) (rank : Nat) : Except Exn Nat := do
  let index ← naturalSub (self.rank + staticTableSize + 1) rank
  natural index

/-- `Get_Name_Value_Index`: the index, `Both`, and the table, into which an unknown name goes. -/
def getNameValueIndex (self : DynamicTable) (settings : Connection) (name value : Text) :
    Except Exn (Nat × Bool × DynamicTable) :=
  match findIndex static.tNI (toLower name) value with
  | some (index, both) => .ok (index, both, self)
  | none =>
      match findIndex self.tNI (toLower name) value with
      | some (rank, both) => do
          let index ← self.indexOfRank rank
          return (index, both, self)
      | none => do
          let inserted ← self.insert settings name value
          return (0, false, inserted)

end DynamicTable
end Hpack
end Http2
end AdaWebServer

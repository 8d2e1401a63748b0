import AdaWebServer.Http2.Basic

/-!
# Values of a header line

The value of a header line is a sequence of values, some of which have names.  They are read from left to
right with indexes that count from 1, where 0 stands for the end of the line.
-/

namespace AdaWebServer
namespace Containers

open Http2 (Octet Text text)

/-- `Utils.Spaces`. -/
def spaces : Text := [32, 9, 10, 13]

/-- `EDel`, the delimiters between values. -/
def entryDelimiters : Text := spaces ++ text ",;"

/-- `VDel`, with the delimiter between a name and its value. -/
def valueDelimiters : Text := entryDelimiters ++ text "="

/-- `Fixed.Index` from an index on. -/
def indexFrom (data : Text) (first : Nat) (test : Octet → Bool) : Nat :=
  match (data.drop (first - 1)).findIdx? test with
  | some offset => first + offset
  | none => 0

/-- The slice between two indexes. -/
def slice (data : Text) (first last : Nat) : Text := (data.take last).drop (first - 1)

/-- What is found at an index: a name if there is one, its value, and the index of what follows. -/
structure NextValue where
  name : Option Text
  value : Text
  first : Nat
  deriving DecidableEq

/-- The index of what follows, without the spaces in front of it. -/
def skipSpaces (data : Text) (first : Nat) : Nat :=
  if data.length < first then 0
  else if 0 < first then indexFrom data first fun octet => octet ∉ spaces
  else 0

/-- `Next_Value`, or nothing where `Format_Error` is raised.  A value without a name holds no delimiter,
so that none is left to cut off at its end. -/
def nextValue (data : Text) (first : Nat) : Option NextValue :=
  let last := indexFrom data first (· ∈ valueDelimiters)
  if last = 0 then
    some { name := none, value := slice data first data.length, first := 0 }
  else if data[last - 1]? = some 61 then
    -- A name that ends in front of the first index is taken for none.
    let name := if last = 1 then none else some (slice data first (last - 1))
    let first := last + 1
    if first < data.length ∧ data[first - 1]? = some 34 then
      let last := indexFrom data (first + 1) (· = 34)
      if last = 0 then none
      else some { name, value := slice data (first + 1) (last - 1), first := skipSpaces data (last + 2) }
    else
      let last := indexFrom data first (· ∈ entryDelimiters)
      if last = 0 then some { name, value := slice data first data.length, first := 0 }
      else some { name, value := slice data first (last - 1), first := skipSpaces data (last + 1) }
  else
    some { name := none, value := slice data first (last - 1), first := skipSpaces data (last + 1) }

/-- The loop of `Search`, for as many values as there may be. -/
def searchLoop (headerValue name : Text) : Nat → Nat → Option Text
  | 0, _ => some []
  | times + 1, first => do
      let next ← nextValue headerValue first
      if next.name = some name then return next.value
      else if next.first = 0 then return []
      else searchLoop headerValue name times next.first

/-- `Search` of a name, with its case. -/
def search (headerValue name : Text) : Option Text :=
  let first := indexFrom headerValue 1 fun octet => octet ∉ entryDelimiters
  if first = 0 then some [] else searchLoop headerValue name headerValue.length first

example : search (text "form-data; name=\"area\"; filename=a.txt") (text "filename") =
    some (text "a.txt") := by decide +kernel

end Containers
end AdaWebServer

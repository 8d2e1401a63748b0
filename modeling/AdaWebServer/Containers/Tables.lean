import AdaWebServer.Foundations.Multimap
import AdaWebServer.Foundations.Protected
import AdaWebServer.Http2.Basic

/-!
# Tables of names and values

A table keeps its pairs in a vector, in the order in which they were added, and an ordered map from each
name to the positions of its pairs.
-/

namespace AdaWebServer
namespace Containers

open Http2 (Text Exn Positive toLower)

/-- A pair of a name and a value. -/
structure Element where
  name : Text := []
  value : Text := []
  deriving DecidableEq, Repr

/-- How a table treats names. -/
structure Mode where
  caseSensitive : Bool := true
  lowercased : Bool := false
  deriving DecidableEq, Repr

/-- `Normalize_Name`, which gives the key of a name. -/
def Mode.normalizeName (mode : Mode) (name : Text) : Text :=
  if mode.caseSensitive then name else toLower name

/-- The pair that is stored. -/
def Mode.newElement (mode : Mode) (name value : Text) : Element where
  name := if mode.lowercased then toLower name else name
  value := value

/-- `Table_Type`. -/
structure Table extends Mode where
  index : Std.TreeMap Text (List Nat) := ∅
  data : List Element := []

namespace Table

/-- An item is added or replaced, and its index vector is updated in place. -/
def process (table : Table) (key name value : Text) (n : Nat) : EStateM.Result Exn Table Unit :=
  let item := table.index.getD key []
  let element := table.newElement name value
  if n = 0 ∨ n = item.length + 1 then
    .ok () { table with
      data := table.data ++ [element]
      index := table.index.insert key (item ++ [table.data.length + 1]) }
  else
    match item[n - 1]? with
    | some position => .ok () { table with data := table.data.set (position - 1) element }
    | none => .error .constraintError table

/-- `Update_Internal`. -/
def updateInternal (table : Table) (name value : Text) (n : Nat) : EStateM.Result Exn Table Unit :=
  let key := table.normalizeName name
  let opened := { table with index := table.index.insertIfNew key [] }
  if ¬table.index.contains key ∧ 1 < n then .error .constraintError opened
  else opened.process key name value n

/-- `Add`. -/
def add (name value : Text) : EStateM Exn Table Unit := fun table =>
  table.updateInternal name value 0

/-- `Update`. -/
def update (name value : Text) (n : Positive) : EStateM Exn Table Unit := fun table =>
  table.updateInternal name value n

/-- `Reset`. -/
def reset : EStateM Exn Table Unit := fun table => .ok () { table with index := ∅, data := [] }

/-- `Count`. -/
def count (table : Table) : Nat := table.data.length

/-- `Is_Empty`. -/
def isEmpty (table : Table) : Bool := table.data.isEmpty

/-- `Exist`. -/
def exist (table : Table) (name : Text) : Bool := table.index.contains (table.normalizeName name)

/-- `Get_Indexes`. -/
def getIndexes (table : Table) (name : Text) : Option (List Nat) :=
  table.index[table.normalizeName name]?

/-- `Count` of a name. -/
def countName (table : Table) (name : Text) : Nat := ((table.getIndexes name).getD []).length

/-- `Get` of the pair with the given number. -/
def get (table : Table) (n : Positive) : Element := (table.data[n.1 - 1]?).getD {}

/-- The element at an index of the vector. -/
def elementAt (table : Table) (position : Nat) : Except Exn Element :=
  match table.data[position - 1]? with
  | some element => .ok element
  | none => .error .constraintError

/-- `Get` of the value of a name with the given number. -/
def getNamed (table : Table) (name : Text) (n : Positive) : Except Exn Text :=
  match ((table.getIndexes name).getD [])[n.1 - 1]? with
  | some position => (table.elementAt position).map Element.value
  | none => .ok []

/-- `Get_Values`. -/
def getValues (table : Table) (name : Text) : Except Exn (List Text) :=
  ((table.getIndexes name).getD []).mapM fun position =>
    (table.elementAt position).map Element.value

/-- `Name_Count`. -/
def nameCount (table : Table) : Nat := table.index.size

/-- `Get_Names`. -/
def getNames (table : Table) : List Text := table.index.keys

/-- A value is appended to others of the same name. -/
def appendValue (separator : Text) (values value : Text) : Text :=
  values ++ (if values = [] then [] else separator) ++ value

/-- The name and the values of one entry of the index, as they are processed. -/
def iterateName (table : Table) (separator : Text) (indexes : List Nat) :
    Except Exn (Text × Text) := do
  let elements ← indexes.mapM table.elementAt
  match elements.getLast? with
  | some last => .ok (last.name, (elements.map Element.value).foldl (appendValue separator) [])
  | none => .error .constraintError

/-- `Generic_Iterate_Names`, with the list of what is processed. -/
def iterateNames (table : Table) (separator : Text) : Except Exn (List (Text × Text)) :=
  table.index.toList.mapM fun entry => table.iterateName separator entry.2

/-- The loop of `Union` over the items of the other table. -/
def unionItems (unique : Bool) : List Element → Table → EStateM.Result Exn Table Unit
  | [], table => .ok () table
  | item :: later, table =>
      if unique ∧ table.exist item.name then unionItems unique later table
      else
        match table.updateInternal item.name item.value 0 with
        | .ok () next => unionItems unique later next
        | .error exn next => .error exn next

/-- `Union`. -/
def union (right : Table) (unique : Bool) : EStateM Exn Table Unit :=
  unionItems unique right.data

end Table
end Containers
end AdaWebServer

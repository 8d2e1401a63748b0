import AdaWebServer.Http2.Hpack.Huffman
import AdaWebServer.Http2.Hpack.Table

/-!
# HPACK decoding

`Decode` reads a header block octet by octet.  The octets come from the generic parameters
`End_Of_Stream` and `Get_Byte`, which deliver a finite list and then either the end of the stream
or an exception.
-/

namespace AdaWebServer
namespace Http2
namespace Hpack

/-- `AWS.Headers.List`, the pairs of names and values in the order of their addition. -/
abbrev Headers := List (Text × Text)

/-- `AWS.Headers.Add`. -/
def addHeader (headers : Headers) (name value : Text) : Except Exn Headers := do
  let _ ← natural (headers.length + 1)
  return headers ++ [(name, value)]

/-- The variables of `Decode` that outlive a header field. -/
structure DecodeState where
  /-- The decoding table. -/
  table : DynamicTable
  /-- The settings of the connection. -/
  settings : Connection
  /-- The headers decoded so far. -/
  headers : Headers
  /-- A header field has been decoded. -/
  data : Bool

namespace Decode

section Octets

-- What `Get_Byte` raises after the last octet; without it the stream ends there.
variable (fault : Option Exn)

/-- `Get_Byte_Safe` after the last octet. -/
def endOfOctets {α : Type} : Except Exn α :=
  match fault with
  | some exn => .error exn
  | none => raiseProtocolError .protocolError "unexpected end of stream on hpack decode"

/-- `Get_Byte_Safe`. -/
def getByteSafe : Octets → Except Exn (Octet × Octets)
  | [] => endOfOctets fault
  | b :: rest => .ok (b, rest)

/-- The loop of `Get_Integer`, with the result so far and the shift `K`. -/
def getContinuation : Nat → Nat → Octets → Except Exn (Nat × Octets)
  | _, _, [] => endOfOctets fault
  | result, k, b :: rest => do
      let result := (result + 2 ^ k % 2 ^ 32 * (b.toNat % 128)) % 2 ^ 32
      let k ← natural (k + 7)
      if b < 128 then return (result, rest) else getContinuation result k rest

/-- `Get_Integer`: an integer whose first part is in the low-order `n` bits of an octet. -/
def getInteger (n : Nat) (byte : Octet) (rest : Octets) : Except Exn (Nat × Octets) :=
  if byte.toNat % 2 ^ n = 2 ^ n - 1 then
    getContinuation fault (2 ^ n - 1) 0 rest
  else
    .ok (byte.toNat % 2 ^ n, rest)

/-- Read the octets of a string. -/
def getOctets (length : Nat) (octets : Octets) : Except Exn (Octets × Octets) :=
  if length ≤ octets.length then
    .ok (octets.take length, octets.drop length)
  else
    endOfOctets fault

-- The length of the largest local array of octets that fits on the stack of the task.
variable (stack : Nat)

/-- `Get_String_Literal`. -/
def getStringLiteral (octets : Octets) : Except Exn (Text × Octets) := do
  let (byte, rest) ← getByteSafe fault octets
  let (length, rest) ← getInteger fault 7 byte rest
  if stack < length then
    .error .storageError
  else do
    let (str, rest) ← getOctets fault length rest
    if 128 ≤ byte then do
      let result ← Huffman.decodeOn stack str
      return (result, rest)
    else do
      let _ ← natural str.length
      return (str, rest)

/-- The name of a literal field: another literal, or the name at an index of the tables. -/
def getName (table : DynamicTable) (idx : Nat) (rest : Octets) : Except Exn (Text × Octets) :=
  if idx = 0 then
    getStringLiteral fault stack rest
  else do
    let index ← positive idx
    let name ← table.getName index
    return (name, rest)

/-- Indexed header field. -/
def indexedField (self : DecodeState) (byte : Octet) (rest : Octets) :
    Except Exn (DecodeState × Octets) := do
  let (idx, rest) ← getInteger fault 7 byte rest
  if idx = 0 then
    raiseProtocolError .protocolError "indexed header field is 0"
  else do
    let index ← positive idx
    let nv ← self.table.getNameValue index
    let headers ← addHeader self.headers nv.name nv.value
    return ({ self with headers, data := true }, rest)

/-- Literal header field with incremental indexing. -/
def incrementalField (self : DecodeState) (byte : Octet) (rest : Octets) :
    Except Exn (DecodeState × Octets) := do
  let (idx, rest) ← getInteger fault 6 byte rest
  let (name, rest) ← getName fault stack self.table idx rest
  let (value, rest) ← getStringLiteral fault stack rest
  let table ← self.table.insert self.settings name value
  let headers ← addHeader self.headers name value
  return ({ self with table, headers, data := true }, rest)

/-- Dynamic table size update. -/
def sizeUpdate (self : DecodeState) (byte : Octet) (rest : Octets) :
    Except Exn (DecodeState × Octets) := do
  let (idx, rest) ← getInteger fault 5 byte rest
  let size ← natural idx
  if self.settings.headerTableSize < size ∨ self.data then
    raiseProtocolError .protocolError "error dynamic table update"
  else
    return ({ self with settings := self.settings.setDynamicHeaderTableSize size }, rest)

/-- Literal header field without indexing, or never indexed. -/
def plainField (self : DecodeState) (byte : Octet) (rest : Octets) :
    Except Exn (DecodeState × Octets) := do
  let (idx, rest) ← getInteger fault 4 byte rest
  let (name, rest) ← getName fault stack self.table idx rest
  let (value, rest) ← getStringLiteral fault stack rest
  let headers ← addHeader self.headers name value
  return ({ self with headers, data := true }, rest)

/-- One turn of the loop of `Decode`. -/
def field (self : DecodeState) (byte : Octet) (rest : Octets) :
    Except Exn (DecodeState × Octets) :=
  if 128 ≤ byte then
    indexedField fault self byte rest
  else if byte / 64 = 1 then
    incrementalField fault stack self byte rest
  else if byte / 32 = 1 then
    sizeUpdate fault self byte rest
  else
    plainField fault stack self byte rest

/-- The loop of `Decode`; every turn reads an octet, so their number bounds the turns. -/
def loop : Nat → DecodeState → Octets → Except Exn DecodeState
  | _, self, [] =>
      match fault with
      | some exn => .error exn
      | none => .ok self
  | 0, self, _ => .ok self
  | bound + 1, self, byte :: rest => do
      let (next, rest) ← field fault stack self byte rest
      loop bound next rest

/-- The rest of the loop from any of its turns. -/
def fields (self : DecodeState) (octets : Octets) : Except Exn DecodeState :=
  loop fault stack octets.length self octets

end Octets
end Decode

/-- `Decode`: the headers of a block, with the table and the settings it leaves. -/
def decode (fault : Option Exn) (stack : Nat) (table : DynamicTable) (settings : Connection)
    (octets : Octets) : Except Exn DecodeState :=
  Decode.fields fault stack { table, settings, headers := [], data := false } octets

namespace Decode

/-! ## Turns of the loop -/

section Turns

variable {fault : Option Exn} {stack : Nat}

theorem getByteSafe_length {octets rest : Octets} {b : Octet}
    (read : getByteSafe fault octets = .ok (b, rest)) : rest.length + 1 = octets.length := by
  cases octets with
  | nil =>
      unfold getByteSafe endOfOctets at read
      cases fault <;> cases read
  | cons first others =>
      cases read
      rfl

theorem endOfOctets_ne_ok {α : Type} {a : α} : endOfOctets fault ≠ .ok a := by
  unfold endOfOctets
  cases fault <;> exact fun equation => by cases equation

theorem getContinuation_length {result k idx : Nat} {octets rest : Octets}
    (read : getContinuation fault result k octets = .ok (idx, rest)) :
    rest.length < octets.length := by
  induction octets generalizing result k with
  | nil => exact absurd read endOfOctets_ne_ok
  | cons b others ih =>
      simp only [getContinuation, bind_eq_ok_iff] at read
      obtain ⟨next, _, read⟩ := read
      split at read
      · cases read
        exact Nat.lt_succ_self _
      · exact Nat.lt_succ_of_lt (ih read)

theorem getInteger_length {n idx : Nat} {byte : Octet} {octets rest : Octets}
    (read : getInteger fault n byte octets = .ok (idx, rest)) : rest.length ≤ octets.length := by
  unfold getInteger at read
  split at read
  · exact (getContinuation_length read).le
  · cases read
    exact le_rfl

theorem getOctets_length {length : Nat} {str octets rest : Octets}
    (read : getOctets fault length octets = .ok (str, rest)) : rest.length ≤ octets.length := by
  unfold getOctets at read
  split at read
  · cases read
    simp
  · exact absurd read endOfOctets_ne_ok

theorem getStringLiteral_length {str : Text} {octets rest : Octets}
    (read : getStringLiteral fault stack octets = .ok (str, rest)) :
    rest.length < octets.length := by
  simp only [getStringLiteral, bind_eq_ok_iff, Prod.exists] at read
  obtain ⟨byte, afterByte, byte_read, length, afterLength, length_read, read⟩ := read
  have first := getByteSafe_length byte_read
  have second := getInteger_length length_read
  split at read
  · cases read
  · simp only [bind_eq_ok_iff, Prod.exists] at read
    obtain ⟨octetsRead, afterOctets, octets_read, read⟩ := read
    have third := getOctets_length octets_read
    split at read <;>
    · simp only [bind_eq_ok_iff] at read
      obtain ⟨_, _, read⟩ := read
      cases read
      omega

theorem getName_length {table : DynamicTable} {idx : Nat} {name : Text} {octets rest : Octets}
    (read : getName fault stack table idx octets = .ok (name, rest)) :
    rest.length ≤ octets.length := by
  unfold getName at read
  split at read
  · exact (getStringLiteral_length read).le
  · simp only [bind_eq_ok_iff] at read
    obtain ⟨_, _, _, _, read⟩ := read
    cases read
    exact le_rfl

/-- A turn never reads back. -/
theorem field_length {self next : DecodeState} {byte : Octet} {octets rest : Octets}
    (read : field fault stack self byte octets = .ok (next, rest)) :
    rest.length ≤ octets.length := by
  unfold field at read
  split_ifs at read
  · simp only [indexedField, bind_eq_ok_iff, Prod.exists] at read
    obtain ⟨idx, afterIdx, idx_read, read⟩ := read
    have first := getInteger_length idx_read
    split at read
    · cases read
    · simp only [bind_eq_ok_iff] at read
      obtain ⟨_, _, _, _, _, _, read⟩ := read
      cases read
      exact first
  · simp only [incrementalField, bind_eq_ok_iff, Prod.exists] at read
    obtain ⟨_, _, idx_read, _, _, name_read, _, _, value_read, _, _, _, _, read⟩ := read
    have first := getInteger_length idx_read
    have second := getName_length name_read
    have third := getStringLiteral_length value_read
    cases read
    omega
  · simp only [sizeUpdate, bind_eq_ok_iff, Prod.exists] at read
    obtain ⟨_, _, idx_read, _, _, read⟩ := read
    have first := getInteger_length idx_read
    split at read
    · cases read
    · cases read
      exact first
  · simp only [plainField, bind_eq_ok_iff, Prod.exists] at read
    obtain ⟨_, _, idx_read, _, _, name_read, _, _, value_read, _, _, read⟩ := read
    have first := getInteger_length idx_read
    have second := getName_length name_read
    have third := getStringLiteral_length value_read
    cases read
    omega

/-- More turns than octets change nothing. -/
theorem loop_eq_fields {bound : Nat} {self : DecodeState} {octets : Octets}
    (enough : octets.length ≤ bound) :
    loop fault stack bound self octets = fields fault stack self octets := by
  unfold fields
  induction bound using Nat.strong_induction_on generalizing self octets with
  | _ bound ih =>
      cases octets with
      | nil => cases bound <;> rfl
      | cons byte rest =>
          obtain ⟨smaller, rfl⟩ : ∃ smaller, bound = smaller + 1 :=
            ⟨bound - 1, by simp at enough; omega⟩
          rw [List.length_cons] at enough ⊢
          rw [loop, loop]
          cases turn : field fault stack self byte rest with
          | error exn => rfl
          | ok result =>
              have shorter : result.2.length ≤ rest.length := field_length turn
              have left : loop fault stack smaller result.1 result.2 =
                  loop fault stack result.2.length result.1 result.2 :=
                ih smaller (by omega) (by omega)
              have right : loop fault stack rest.length result.1 result.2 =
                  loop fault stack result.2.length result.1 result.2 :=
                ih rest.length (by omega) shorter
              exact left.trans right.symm

/-- The loop takes a turn whenever there is an octet. -/
theorem fields_cons (self : DecodeState) (byte : Octet) (rest : Octets) :
    fields fault stack self (byte :: rest) =
      field fault stack self byte rest >>= fun (next, rest) => fields fault stack next rest := by
  rw [fields, List.length_cons, loop]
  cases turn : field fault stack self byte rest with
  | error exn => rfl
  | ok result => exact loop_eq_fields (field_length turn)

/-- What every turn preserves holds of the state that the loop returns. -/
theorem fields_preserve (property : DecodeState → Prop)
    (turn_preserves : ∀ {self next : DecodeState} {byte : Octet} {octets rest : Octets},
      property self → field fault stack self byte octets = .ok (next, rest) → property next)
    {self final : DecodeState} {octets : Octets} (start : property self)
    (read : fields fault stack self octets = .ok final) : property final := by
  obtain ⟨count, length⟩ : ∃ count, octets.length = count := ⟨_, rfl⟩
  induction count using Nat.strong_induction_on generalizing self octets with
  | _ count ih =>
      cases octets with
      | nil =>
          cases fault with
          | some exn => cases read
          | none =>
              cases read
              exact start
      | cons byte rest =>
          rw [fields_cons, bind_eq_ok_iff] at read
          obtain ⟨⟨next, after⟩, turn, read⟩ := read
          have shorter := field_length turn
          rw [List.length_cons] at length
          exact ih after.length (by omega) (turn_preserves start turn) read rfl

theorem fault_eq_none {self final : DecodeState} {octets : Octets}
    (read : fields fault stack self octets = .ok final) : fault = none := by
  obtain ⟨count, length⟩ : ∃ count, octets.length = count := ⟨_, rfl⟩
  induction count using Nat.strong_induction_on generalizing self octets with
  | _ count ih =>
      cases octets with
      | nil =>
          cases fault with
          | some exn => cases read
          | none => rfl
      | cons byte rest =>
          rw [fields_cons, bind_eq_ok_iff] at read
          obtain ⟨⟨next, after⟩, turn, read⟩ := read
          have shorter := field_length turn
          rw [List.length_cons] at length
          exact ih after.length (by omega) read rfl

end Turns
end Decode
end Hpack
end Http2
end AdaWebServer

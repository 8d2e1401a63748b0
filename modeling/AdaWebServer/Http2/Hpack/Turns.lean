import AdaWebServer.Http2.Hpack.Literals
import AdaWebServer.Http2.Hpack.TableInvariant

/-!
# Turns of the decoder

What one turn of the loop of `Decode` makes of a field that was sent with a given representation.
-/

namespace AdaWebServer
namespace Http2
namespace Hpack

theorem octet_div_eq_one {byte divisor : Octet} :
    byte / divisor = 1 ↔ byte.toNat / divisor.toNat = 1 := by
  rw [← UInt8.toNat_inj, UInt8.toNat_div]
  rfl

theorem le_octet_iff {byte : Octet} : 128 ≤ byte ↔ 128 ≤ byte.toNat := by
  rw [UInt8.le_iff_toNat_le]
  rfl

/-- Read as the next field, the octets lead from one state of the decoder to another. -/
def Turn (stack : Nat) (self : DecodeState) (octets : Octets) (next : DecodeState) : Prop :=
  ∀ fault rest, Decode.fields fault stack self (octets ++ rest) = Decode.fields fault stack next rest

theorem addHeader_of_lt {headers : Headers} (small : headers.length + 1 ≤ naturalLast)
    (name value : Text) : addHeader headers name value = .ok (headers ++ [(name, value)]) := by
  rw [addHeader, natural_of_le small]
  rfl

/-- State after a header has been decoded. -/
def DecodeState.received (self : DecodeState) (table : DynamicTable) (name value : Text) :
    DecodeState where
  table := table
  settings := self.settings
  headers := self.headers ++ [(name, value)]
  data := true

/-- An indexed field is decoded into the entry at its index. -/
theorem turn_indexed (stack : Nat) {index : Nat} {self : DecodeState} {octets : Octets} {item : NameValue}
    (sent : SentInteger index 0x80 7 octets) (nonzero : 1 ≤ index) (small : index ≤ naturalLast)
    (designated : self.table.entry "name-value" index = .ok item)
    (count : self.headers.length + 1 ≤ naturalLast) :
    Turn stack self octets (self.received self.table item.name item.value) := by
  obtain ⟨byte, tail, rfl, high, _, reads⟩ := sent.starts
  intro fault rest
  have high : byte.toNat / 128 = 1 := high
  have large : 128 ≤ byte := le_octet_iff.mpr (by omega)
  have turn : Decode.field fault stack self byte (tail ++ rest) =
      .ok (self.received self.table item.name item.value, rest) := by
    rw [Decode.field, if_pos large, Decode.indexedField, reads fault rest]
    simp only [ok_bind]
    rw [if_neg (by omega), positive_of_le nonzero small, ok_bind, DynamicTable.getNameValue,
      designated, ok_bind, addHeader_of_lt count]
    rfl
  rw [List.cons_append, Decode.fields_cons, turn, ok_bind]

/-- A literal field with incremental indexing, once its index has been sent. -/
theorem fields_incremental {idx : Nat} {octets : Octets} (sent : SentInteger idx 0x40 6 octets)
    (fault : Option Exn) (stack : Nat) (self : DecodeState) (rest : Octets) :
    Decode.fields fault stack self (octets ++ rest) = (do
      let (name, rest) ← Decode.getName fault stack self.table idx rest
      let (value, rest) ← Decode.getStringLiteral fault stack rest
      let table ← self.table.insert self.settings name value
      let headers ← addHeader self.headers name value
      Decode.fields fault stack { self with table, headers, data := true } rest) := by
  obtain ⟨byte, tail, rfl, high, _, reads⟩ := sent.starts
  have high : byte.toNat / 64 = 1 := high
  have not_indexed : ¬ 128 ≤ byte := mt le_octet_iff.mp (by omega)
  have incremental : byte / 64 = 1 := octet_div_eq_one.mpr high
  rw [List.cons_append, Decode.fields_cons, Decode.field, if_neg not_indexed, if_pos incremental,
    Decode.incrementalField, reads fault rest]
  simp only [bind_assoc, ok_bind, pure_eq_ok]

/-- A literal field without indexing, once its index has been sent. -/
theorem fields_plain {idx : Nat} {flags : Octet} {octets : Octets}
    (sent : SentInteger idx flags 4 octets) (kind : flags.toNat / 16 < 2)
    (fault : Option Exn) (stack : Nat) (self : DecodeState) (rest : Octets) :
    Decode.fields fault stack self (octets ++ rest) = (do
      let (name, rest) ← Decode.getName fault stack self.table idx rest
      let (value, rest) ← Decode.getStringLiteral fault stack rest
      let headers ← addHeader self.headers name value
      Decode.fields fault stack { self with headers, data := true } rest) := by
  obtain ⟨byte, tail, rfl, high, _, reads⟩ := sent.starts
  have high : byte.toNat / 16 = flags.toNat / 16 := high
  have not_indexed : ¬ 128 ≤ byte := mt le_octet_iff.mp (by omega)
  have not_incremental : ¬ byte / 64 = 1 :=
    mt octet_div_eq_one.mp (show ¬ byte.toNat / 64 = 1 by omega)
  have not_update : ¬ byte / 32 = 1 :=
    mt octet_div_eq_one.mp (show ¬ byte.toNat / 32 = 1 by omega)
  rw [List.cons_append, Decode.fields_cons, Decode.field, if_neg not_indexed,
    if_neg not_incremental, if_neg not_update, Decode.plainField, reads fault rest]
  simp only [bind_assoc, ok_bind, pure_eq_ok]

/-- An accepted dynamic table size update. -/
theorem turn_sizeUpdate {stack size : Nat} {self : DecodeState} {octets : Octets}
    (sent : SentInteger size 0x20 5 octets) (small : size ≤ naturalLast)
    (allowed : size ≤ self.settings.headerTableSize) (first : self.data = false) :
    Turn stack self octets
      { self with settings := self.settings.setDynamicHeaderTableSize size } := by
  obtain ⟨byte, tail, rfl, high, _, reads⟩ := sent.starts
  intro fault rest
  have high : byte.toNat / 32 = 1 := high
  have not_indexed : ¬ 128 ≤ byte := mt le_octet_iff.mp (by omega)
  have not_incremental : ¬ byte / 64 = 1 :=
    mt octet_div_eq_one.mp (show ¬ byte.toNat / 64 = 1 by omega)
  have update : byte / 32 = 1 := octet_div_eq_one.mpr high
  have refused : ¬ (self.settings.headerTableSize < size ∨ self.data = true) := by
    rw [first]
    simpa using allowed
  rw [List.cons_append, Decode.fields_cons, Decode.field, if_neg not_indexed,
    if_neg not_incremental, if_pos update, Decode.sizeUpdate, reads fault rest]
  simp only [ok_bind, natural_of_le small, refused, if_false, pure_eq_ok]

/-- The name at an index of the tables. -/
theorem getName_index {fault : Option Exn} {stack index : Nat} {table : DynamicTable}
    {item : NameValue} (nonzero : 1 ≤ index) (small : index ≤ naturalLast)
    (designated : table.entry "name" index = .ok item) (rest : Octets) :
    Decode.getName fault stack table index rest = .ok (item.name, rest) := by
  rw [Decode.getName, if_neg (by omega), positive_of_le nonzero small]
  simp only [ok_bind, DynamicTable.getName, designated, pure_eq_ok]

/-- A name that follows as a literal. -/
theorem getName_literal {fault : Option Exn} {stack : Nat} {table : DynamicTable}
    (rest : Octets) :
    Decode.getName fault stack table 0 rest = Decode.getStringLiteral fault stack rest := if_pos rfl

theorem sentInteger_newName : SentInteger 0 0x40 6 [0x40] :=
  sentInteger_encode (show Clear 0x40 6 by decide) (Nat.zero_le _)

/-- A turn only adds headers. -/
theorem field_headers {fault : Option Exn} {stack : Nat} {self next : DecodeState} {byte : Octet}
    {octets rest : Octets} (read : Decode.field fault stack self byte octets = .ok (next, rest)) :
    self.headers <+: next.headers := by
  have added : ∀ {name value : Text} {headers : Headers},
      addHeader self.headers name value = .ok headers → self.headers <+: headers := by
    intro name value headers add
    simp only [addHeader, bind_eq_ok_iff] at add
    obtain ⟨_, _, add⟩ := add
    cases add
    exact List.prefix_append _ _
  unfold Decode.field at read
  split_ifs at read
  · simp only [Decode.indexedField, bind_eq_ok_iff, Prod.exists] at read
    obtain ⟨idx, afterIdx, _, read⟩ := read
    split at read
    · cases read
    · simp only [bind_eq_ok_iff] at read
      obtain ⟨_, _, _, _, _, add, read⟩ := read
      cases read
      exact added add
  · simp only [Decode.incrementalField, bind_eq_ok_iff, Prod.exists] at read
    obtain ⟨_, _, _, _, _, _, _, _, _, _, _, _, add, read⟩ := read
    cases read
    exact added add
  · simp only [Decode.sizeUpdate, bind_eq_ok_iff, Prod.exists] at read
    obtain ⟨_, _, _, _, _, read⟩ := read
    split at read
    · cases read
    · cases read
      exact List.prefix_rfl
  · simp only [Decode.plainField, bind_eq_ok_iff, Prod.exists] at read
    obtain ⟨_, _, _, _, _, _, _, _, _, _, add, read⟩ := read
    cases read
    exact added add

/-- The loop only adds headers. -/
theorem fields_headers {fault : Option Exn} {stack : Nat} {self final : DecodeState}
    {octets : Octets} (read : Decode.fields fault stack self octets = .ok final) :
    self.headers <+: final.headers :=
  Decode.fields_preserve (fun state => self.headers <+: state.headers)
    (fun earlier turn => earlier.trans (field_headers turn)) List.prefix_rfl read

end Hpack
end Http2
end AdaWebServer

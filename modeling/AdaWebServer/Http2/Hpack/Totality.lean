import AdaWebServer.Http2.Hpack.Literals
import AdaWebServer.Http2.Hpack.TableInvariant
import Mathlib.Logic.Relation

/-!
# Which octets take the decoder down

`Decode` is meant to return a header list or to raise `Protocol_Error`.  This file lists what makes
another exception escape: conversions of unbounded integers, empty Huffman strings, empty names,
literals larger than the stack, and counters at their limits.  Nothing else does.
-/

namespace AdaWebServer
namespace Http2

/-! ## Escaping exceptions -/

/-- An exception other than `Protocol_Error` is raised. -/
def Escapes {α : Type} (result : Except Exn α) : Prop :=
  ∃ exn, result = .error exn ∧ ¬ exn.IsProtocolError

section Escapes

variable {α β : Type}

@[simp]
theorem not_escapes_ok (a : α) : ¬ Escapes (Except.ok a) := by
  rintro ⟨exn, raised, _⟩
  cases raised

@[simp]
theorem escapes_error (exn : Exn) : Escapes (.error exn : Except Exn α) ↔ ¬ exn.IsProtocolError := by
  constructor
  · rintro ⟨other, raised, escapes⟩
    cases raised
    exact escapes
  · exact fun escapes => ⟨exn, rfl, escapes⟩

@[simp]
theorem not_escapes_raise (error : ErrorCode) (message : String) :
    ¬ Escapes (raiseProtocolError error message : Except Exn α) := by
  rw [raiseProtocolError, escapes_error, not_not]
  trivial

/-- An exception escapes from the first part of a sequence or from the second. -/
theorem escapes_bind {computation : Except Exn α} {f : α → Except Exn β} :
    Escapes (computation >>= f) ↔
      Escapes computation ∨ ∃ a, computation = .ok a ∧ Escapes (f a) := by
  cases computation <;> simp

theorem escapes_natural {number : Nat} : Escapes (natural number) ↔ naturalLast < number := by
  unfold natural
  split
  · next small => simpa using small
  · next large => simpa [Exn.IsProtocolError] using large

theorem escapes_positive {number : Nat} (nonzero : number ≠ 0) :
    Escapes (positive number) ↔ naturalLast < number := by
  unfold positive
  split
  · next valid => simpa using valid.2
  · next invalid =>
      simp only [escapes_error, Exn.IsProtocolError, not_false_eq_true, true_iff]
      omega

end Escapes

namespace Hpack

/-! ## Hazards -/

/-- Number of bits of the integer that starts in the first octet of a field. -/
def prefixWidth (byte : Octet) : Nat :=
  if 128 ≤ byte then 7 else if byte / 64 = 1 then 6 else if byte / 32 = 1 then 5 else 4

/-- A string of the given form and length is refused by a language check: the result of the Huffman
decoder, three times as long as the string, has to fit on the stack. -/
def StringHazard (stack : Nat) (huffman : Bool) (length : Nat) : Prop :=
  if huffman then length = 0 ∨ naturalLast < length * 3 ∨ stack < length * 3
  else naturalLast < length

section Hazards

variable (fault : Option Exn) (stack : Nat)

/-- A string literal takes the decoder down. -/
def LiteralHazard : Octets → Prop
  | [] => False
  | byte :: rest =>
      ShiftOverflow 7 byte rest ∨
        ∃ length rest', Decode.getInteger fault 7 byte rest = .ok (length, rest') ∧
          (stack < length ∨ length ≤ rest'.length ∧ StringHazard stack (128 ≤ byte) length)

/-- The name of a literal field takes the decoder down. -/
def NameHazard (idx : Nat) (rest : Octets) : Prop :=
  if idx = 0 then LiteralHazard fault stack rest else naturalLast < idx

/-- An entry cannot be inserted: its name is empty, or it overflows the counters of the table. -/
def InsertHazard (table : DynamicTable) (name value : Text) : Prop :=
  ∀ item, nameValue (toLower name) value = .ok item → ¬ table.Takes item

/-- What follows the index of a field takes the decoder down. -/
def TailHazard (self : DecodeState) (byte : Octet) (idx : Nat) (rest : Octets) : Prop :=
  if 128 ≤ byte then
    naturalLast < idx ∨
      idx ≠ 0 ∧ idx ≤ staticTableSize + self.table.length ∧ naturalLast < self.headers.length + 1
  else if byte / 32 = 1 then
    naturalLast < idx
  else
    NameHazard fault stack idx rest ∨
      ∃ name afterName, Decode.getName fault stack self.table idx rest = .ok (name, afterName) ∧
        (LiteralHazard fault stack afterName ∨
          ∃ value afterValue,
            Decode.getStringLiteral fault stack afterName = .ok (value, afterValue) ∧
              (byte / 64 = 1 ∧ InsertHazard self.table name value ∨
                naturalLast < self.headers.length + 1))

/-- A field takes the decoder down. -/
def Hazard (self : DecodeState) (byte : Octet) (rest : Octets) : Prop :=
  ShiftOverflow (prefixWidth byte) byte rest ∨
    ∃ idx rest', Decode.getInteger fault (prefixWidth byte) byte rest = .ok (idx, rest') ∧
      TailHazard fault stack self byte idx rest'

end Hazards

/-! ## Parts of a field -/

section Parts

variable {fault : Option Exn} {stack : Nat}

/-- What `Get_Byte` raises at the end is `Protocol_Error`. -/
def Orderly (fault : Option Exn) : Prop := ∀ exn ∈ fault, exn.IsProtocolError

theorem orderly_none : Orderly none := by
  intro exn member
  cases member

theorem Orderly.not_escapes (orderly : Orderly fault) {α : Type} :
    ¬ Escapes (Decode.endOfOctets fault : Except Exn α) := by
  unfold Decode.endOfOctets
  cases fault with
  | none => exact not_escapes_raise _ _
  | some exn =>
      rw [escapes_error, not_not]
      exact orderly exn rfl

theorem escapes_getInteger (orderly : Orderly fault) {n : Nat} (narrow : n ≤ 8) {byte : Octet}
    {rest : Octets} :
    Escapes (Decode.getInteger fault n byte rest) ↔ ShiftOverflow n byte rest := by
  by_cases overflow : ShiftOverflow n byte rest
  · rw [getInteger_overflow overflow]
    simp [overflow, Exn.IsProtocolError]
  · rw [getInteger_eq narrow overflow]
    simp only [overflow, iff_false]
    cases PrefixInteger.read n byte rest with
    | none => exact orderly.not_escapes
    | some result => exact not_escapes_ok _

theorem escapes_getOctets (orderly : Orderly fault) {length : Nat} {octets : Octets} :
    ¬ Escapes (Decode.getOctets fault length octets) := by
  unfold Decode.getOctets
  split
  · exact not_escapes_ok _
  · exact orderly.not_escapes

theorem escapes_huffman {str : Octets} :
    Escapes (Huffman.decodeOn stack str) ↔ StringHazard stack true str.length := by
  have hazard_iff : StringHazard stack true str.length ↔
      str.length = 0 ∨ naturalLast < str.length * 3 ∨ stack < str.length * 3 := Iff.rfl
  rw [hazard_iff, Huffman.decodeOn]
  by_cases empty : str.length = 0
  · simp [empty, positive, Exn.IsProtocolError]
  · rw [escapes_bind, escapes_positive empty]
    by_cases large : naturalLast < str.length * 3
    · refine iff_of_true ?_ (.inr (.inl large))
      by_cases long : naturalLast < str.length
      · exact .inl long
      · refine .inr ⟨_, positive_of_le (Nat.one_le_iff_ne_zero.mpr empty) (not_lt.mp long), ?_⟩
        rw [escapes_bind, escapes_natural]
        exact .inl large
    · have small : str.length * 3 ≤ naturalLast := not_lt.mp large
      have short : ¬naturalLast < str.length := by omega
      rw [positive_of_le (Nat.one_le_iff_ne_zero.mpr empty) (not_lt.mp short)]
      simp only [natural_of_le small, ok_bind, Except.ok.injEq, exists_eq_left', short, large, empty,
        false_or]
      by_cases unfit : stack < str.length * 3
      · simp [unfit, Exn.IsProtocolError]
      · simp only [unfit, if_false, iff_false]
        rintro ⟨exn, raised, escapes⟩
        exact escapes (Huffman.decode_total (by rintro rfl; exact empty rfl) small raised)

theorem escapes_getStringLiteral (orderly : Orderly fault) {octets : Octets} :
    Escapes (Decode.getStringLiteral fault stack octets) ↔ LiteralHazard fault stack octets := by
  cases octets with
  | nil =>
      rw [Decode.getStringLiteral, Decode.getByteSafe, escapes_bind]
      constructor
      · rintro (raised | ⟨a, read, _⟩)
        · exact absurd raised orderly.not_escapes
        · exact absurd read Decode.endOfOctets_ne_ok
      · exact False.elim
  | cons byte rest =>
      rw [Decode.getStringLiteral, Decode.getByteSafe, ok_bind, LiteralHazard]
      simp only [escapes_bind, escapes_getInteger orderly (show 7 ≤ 8 by decide), Prod.exists]
      refine or_congr Iff.rfl (exists_congr fun length => exists_congr fun rest' =>
        and_congr Iff.rfl ?_)
      by_cases large : stack < length
      · simp [large, Exn.IsProtocolError]
      · simp only [large, if_false, false_or, escapes_bind, escapes_getOctets orderly, Prod.exists]
        by_cases enough : length ≤ rest'.length
        · rw [Decode.getOctets, if_pos enough]
          simp only [Except.ok.injEq, Prod.mk.injEq, enough, true_and]
          have taken : (rest'.take length).length = length := by simp [enough]
          constructor
          · rintro ⟨str, after, ⟨rfl, rfl⟩, hazard⟩
            by_cases huffman : 128 ≤ byte
            · simp only [huffman, if_true, escapes_bind, escapes_huffman, pure_eq_ok,
                not_escapes_ok, and_false, exists_false, or_false, taken] at hazard
              simpa [huffman] using hazard
            · simp only [huffman, if_false, escapes_bind, escapes_natural, pure_eq_ok,
                not_escapes_ok, and_false, exists_false, or_false, taken] at hazard
              simpa [huffman, StringHazard] using hazard
          · intro hazard
            refine ⟨_, _, ⟨rfl, rfl⟩, ?_⟩
            by_cases huffman : 128 ≤ byte
            · simp only [huffman, if_true, escapes_bind, escapes_huffman, taken]
              exact .inl (by simpa [huffman] using hazard)
            · simp only [huffman, if_false, escapes_bind, escapes_natural, taken]
              exact .inl (by simpa [huffman, StringHazard] using hazard)
        · simp only [enough, false_and, iff_false, not_exists, not_and]
          intro str after read
          rw [Decode.getOctets, if_neg enough] at read
          exact absurd read Decode.endOfOctets_ne_ok

theorem static_length : static.tIN.length = staticTableSize := by
  decide +kernel

/-- A lookup by index never takes the decoder down; it succeeds within the tables. -/
theorem entry_cases {table : DynamicTable} (consistent : DynamicTable.Consistent table)
    {index : Nat} (nonzero : index ≠ 0) (what : String) :
    if index ≤ staticTableSize + table.length then ∃ item, table.entry what index = .ok item
    else table.entry what index =
      raiseProtocolError .protocolError (table.wrongIndex what index) := by
  split
  · next within =>
      by_cases small : index ≤ staticTableSize
      · have present : index - 1 < static.tIN.length := by
          rw [static_length]
          omega
        refine ⟨static.tIN[index - 1], ?_⟩
        rw [DynamicTable.entry_static small, DynamicTable.entryAt, List.getElem?_eq_getElem present]
      · obtain ⟨item, _, entered⟩ :=
          DynamicTable.entry_dynamic consistent index (not_le.mp small) within what
        exact ⟨item, entered⟩
  · next beyond => exact DynamicTable.entry_beyond (not_le.mp beyond) what

theorem not_escapes_entry {table : DynamicTable} (consistent : DynamicTable.Consistent table)
    {index : Nat} (nonzero : index ≠ 0) (what : String) : ¬ Escapes (table.entry what index) := by
  have cases := entry_cases consistent nonzero what
  split at cases
  · obtain ⟨item, entered⟩ := cases
    rw [entered]
    exact not_escapes_ok _
  · rw [cases]
    exact not_escapes_raise _ _

theorem escapes_getName (orderly : Orderly fault) {table : DynamicTable}
    (consistent : DynamicTable.Consistent table) {idx : Nat} {rest : Octets} :
    Escapes (Decode.getName fault stack table idx rest) ↔ NameHazard fault stack idx rest := by
  unfold Decode.getName NameHazard
  split
  · exact escapes_getStringLiteral orderly
  · next nonzero =>
      have no_escape : ∀ index, index ≠ 0 → ¬ Escapes (table.getName index) := by
        intro index nonzero
        simp [DynamicTable.getName, escapes_bind, not_escapes_entry consistent nonzero]
      simp only [escapes_bind, escapes_positive nonzero, pure_eq_ok, not_escapes_ok, and_false,
        exists_false, or_false, or_iff_left_iff_imp]
      rintro ⟨index, converted, escapes⟩
      have index_eq : index = idx := by
        unfold positive at converted
        split at converted
        · exact (Except.ok.inj converted).symm
        · cases converted
      exact absurd escapes (no_escape index (index_eq ▸ nonzero))

theorem escapes_insert {table : DynamicTable} (consistent : DynamicTable.Consistent table)
    (settings : Connection) {name value : Text} :
    Escapes (table.insert settings name value) ↔ InsertHazard table name value := by
  by_cases refused : InsertHazard table name value
  · rw [DynamicTable.insert_refused consistent settings refused]
    simpa [Exn.IsProtocolError] using refused
  · simp only [refused, iff_false]
    unfold InsertHazard at refused
    push Not at refused
    obtain ⟨item, built, takes⟩ := refused
    obtain ⟨after, done, _⟩ := DynamicTable.insert_spec consistent settings built takes
    rw [done]
    exact not_escapes_ok _

theorem escapes_addHeader {headers : Headers} {name value : Text} :
    Escapes (addHeader headers name value) ↔ naturalLast < headers.length + 1 := by
  simp [addHeader, escapes_bind, escapes_natural]

end Parts

/-! ## Fields -/

section Fields

variable {fault : Option Exn} {stack : Nat}

private theorem escapes_indexedField (orderly : Orderly fault) {self : DecodeState}
    (consistent : DynamicTable.Consistent self.table) {byte : Octet} {rest : Octets}
    (kind : 128 ≤ byte) :
    Escapes (Decode.indexedField fault self byte rest) ↔ ShiftOverflow 7 byte rest ∨
      ∃ idx rest', Decode.getInteger fault 7 byte rest = .ok (idx, rest') ∧
        TailHazard fault stack self byte idx rest' := by
  simp only [Decode.indexedField, escapes_bind, escapes_getInteger orderly (show 7 ≤ 8 by decide),
    Prod.exists, TailHazard, kind, if_true]
  refine or_congr Iff.rfl (exists_congr fun idx => exists_congr fun rest' =>
    and_congr Iff.rfl ?_)
  by_cases zero : idx = 0
  · subst zero
    simp [naturalLast]
  · simp only [zero, if_false, escapes_bind, escapes_positive zero, escapes_addHeader, pure_eq_ok,
      not_escapes_ok, and_false, exists_false, or_false, ne_eq, not_false_eq_true, true_and]
    by_cases large : naturalLast < idx
    · simp [large]
    · have converted : positive idx = .ok idx := positive_of_le (by omega) (by omega)
      have safe := not_escapes_entry consistent zero "name-value"
      have found := entry_cases consistent zero "name-value"
      simp only [large, false_or, converted, Except.ok.injEq, exists_eq_left',
        DynamicTable.getNameValue, safe]
      split at found
      · next within =>
          obtain ⟨item, entered⟩ := found
          simp [entered, within]
      · next beyond =>
          rw [found]
          simp [raiseProtocolError, beyond]

private theorem escapes_sizeUpdate (orderly : Orderly fault) {self : DecodeState} {byte : Octet}
    {rest : Octets} (not_indexed : ¬ 128 ≤ byte) (kind : byte / 32 = 1) :
    Escapes (Decode.sizeUpdate fault self byte rest) ↔ ShiftOverflow 5 byte rest ∨
      ∃ idx rest', Decode.getInteger fault 5 byte rest = .ok (idx, rest') ∧
        TailHazard fault stack self byte idx rest' := by
  simp only [Decode.sizeUpdate, escapes_bind, escapes_getInteger orderly (show 5 ≤ 8 by decide),
    Prod.exists, TailHazard, not_indexed, if_false, kind, if_true]
  refine or_congr Iff.rfl (exists_congr fun idx => exists_congr fun rest' =>
    and_congr Iff.rfl ?_)
  simp only [escapes_natural, or_iff_left_iff_imp]
  rintro ⟨size, _, escapes⟩
  split at escapes
  · exact absurd escapes (not_escapes_raise _ _)
  · exact absurd escapes (not_escapes_ok _)

/-- The name and the value of a literal field, and what is done with them. -/
private theorem escapes_literal (orderly : Orderly fault) {self : DecodeState}
    (consistent : DynamicTable.Consistent self.table) {idx : Nat} {rest : Octets}
    (finish : Text → Text → Octets → Except Exn (DecodeState × Octets)) (hazard : Text → Text → Prop)
    (finishes : ∀ name value rest, Escapes (finish name value rest) ↔ hazard name value) :
    Escapes (Decode.getName fault stack self.table idx rest >>= fun named =>
        Decode.getStringLiteral fault stack named.2 >>= fun valued =>
          finish named.1 valued.1 valued.2) ↔
      NameHazard fault stack idx rest ∨
        ∃ name afterName, Decode.getName fault stack self.table idx rest = .ok (name, afterName) ∧
          (LiteralHazard fault stack afterName ∨
            ∃ value afterValue,
              Decode.getStringLiteral fault stack afterName = .ok (value, afterValue) ∧
                hazard name value) := by
  simp only [escapes_bind, escapes_getName orderly consistent, escapes_getStringLiteral orderly,
    Prod.exists, finishes]

/-- A turn of the loop lets an exception escape exactly when its field is a hazard. -/
theorem escapes_field (orderly : Orderly fault) {self : DecodeState}
    (consistent : DynamicTable.Consistent self.table) {byte : Octet} {rest : Octets} :
    Escapes (Decode.field fault stack self byte rest) ↔ Hazard fault stack self byte rest := by
  unfold Decode.field Hazard prefixWidth
  by_cases indexed : 128 ≤ byte
  · simp only [indexed, if_true]
    exact escapes_indexedField orderly consistent indexed
  · simp only [indexed, if_false]
    by_cases incremental : byte / 64 = 1
    · have not_update : ¬ byte / 32 = 1 := by
        intro update
        have first := congrArg UInt8.toNat incremental
        have second := congrArg UInt8.toNat update
        rw [UInt8.toNat_div] at first second
        simp only [UInt8.reduceToNat] at first second
        omega
      simp only [incremental, if_true]
      rw [Decode.incrementalField, escapes_bind, escapes_getInteger orderly (by decide)]
      simp only [Prod.exists, TailHazard, indexed, if_false, not_update, incremental, true_and]
      refine or_congr Iff.rfl (exists_congr fun idx => exists_congr fun rest' =>
        and_congr Iff.rfl ?_)
      refine escapes_literal orderly consistent
        (fun name value rest => do
          let table ← self.table.insert self.settings name value
          let headers ← addHeader self.headers name value
          return ({ self with table, headers, data := true }, rest))
        (fun name value =>
          InsertHazard self.table name value ∨ naturalLast < self.headers.length + 1) ?_
      intro name value after
      simp only [escapes_bind, escapes_insert consistent, escapes_addHeader, pure_eq_ok,
        not_escapes_ok, and_false, exists_false, or_false]
      by_cases refused : InsertHazard self.table name value
      · simp [refused]
      · have inserted : ∃ table, self.table.insert self.settings name value = .ok table := by
          have safe := mt (escapes_insert consistent self.settings).mp refused
          cases result : self.table.insert self.settings name value with
          | ok table => exact ⟨table, rfl⟩
          | error exn =>
              by_contra
              unfold InsertHazard at refused
              push Not at refused
              obtain ⟨item, built, takes⟩ := refused
              obtain ⟨table, done, _⟩ :=
                DynamicTable.insert_spec consistent self.settings built takes
              rw [done] at result
              cases result
        obtain ⟨table, done⟩ := inserted
        simp [refused, done]
    · simp only [incremental, if_false]
      by_cases update : byte / 32 = 1
      · simp only [update, if_true]
        exact escapes_sizeUpdate orderly indexed update
      · simp only [update, if_false]
        rw [Decode.plainField, escapes_bind, escapes_getInteger orderly (by decide)]
        simp only [Prod.exists, TailHazard, indexed, if_false, update, incremental, false_and,
          false_or]
        refine or_congr Iff.rfl (exists_congr fun idx => exists_congr fun rest' =>
          and_congr Iff.rfl ?_)
        refine escapes_literal orderly consistent
          (fun name value rest => do
            let headers ← addHeader self.headers name value
            return ({ self with headers, data := true }, rest))
          (fun _ _ => naturalLast < self.headers.length + 1) ?_
        intro name value after
        simp only [escapes_bind, escapes_addHeader, pure_eq_ok, not_escapes_ok, and_false,
          exists_false, or_false]

/-- Every turn keeps the decoding table consistent. -/
theorem field_consistent {self next : DecodeState} {byte : Octet} {octets rest : Octets}
    (consistent : DynamicTable.Consistent self.table)
    (turn : Decode.field fault stack self byte octets = .ok (next, rest)) :
    DynamicTable.Consistent next.table := by
  unfold Decode.field at turn
  split_ifs at turn
  · simp only [Decode.indexedField, bind_eq_ok_iff, Prod.exists] at turn
    obtain ⟨_, _, _, turn⟩ := turn
    split at turn
    · cases turn
    · simp only [bind_eq_ok_iff] at turn
      obtain ⟨_, _, _, _, _, _, turn⟩ := turn
      cases turn
      exact consistent
  · simp only [Decode.incrementalField, bind_eq_ok_iff, Prod.exists] at turn
    obtain ⟨_, _, _, _, _, _, _, _, _, table, inserted, _, _, turn⟩ := turn
    cases turn
    obtain ⟨_, _, _, _, kept, _⟩ := DynamicTable.insert_eq_ok consistent inserted
    exact kept
  · simp only [Decode.sizeUpdate, bind_eq_ok_iff, Prod.exists] at turn
    obtain ⟨_, _, _, _, _, turn⟩ := turn
    split at turn
    · cases turn
    · cases turn
      exact consistent
  · simp only [Decode.plainField, bind_eq_ok_iff, Prod.exists] at turn
    obtain ⟨_, _, _, _, _, _, _, _, _, _, _, turn⟩ := turn
    cases turn
    exact consistent

end Fields

/-! ## Blocks -/

section Blocks

variable (fault : Option Exn) (stack : Nat)

/-- One turn of the loop leads from one place in the block to the next. -/
def TurnStep (before after : DecodeState × Octets) : Prop :=
  ∃ byte rest, before.2 = byte :: rest ∧ Decode.field fault stack before.1 byte rest = .ok after

/-- The loop reaches a field that takes the decoder down. -/
def ReachesHazard (self : DecodeState) (octets : Octets) : Prop :=
  ∃ state byte rest,
    Relation.ReflTransGen (TurnStep fault stack) (self, octets) (state, byte :: rest) ∧
      Hazard fault stack state byte rest

end Blocks

section

variable {fault : Option Exn} {stack : Nat}

/-- Turns keep the decoding table consistent. -/
theorem consistent_of_turns {before after : DecodeState × Octets}
    (turns : Relation.ReflTransGen (TurnStep fault stack) before after)
    (consistent : DynamicTable.Consistent before.1.table) :
    DynamicTable.Consistent after.1.table := by
  induction turns with
  | refl => exact consistent
  | tail _ step ih =>
      obtain ⟨byte, rest, _, turn⟩ := step
      exact field_consistent ih turn

/-- The outcome of the loop is not changed by taking turns. -/
theorem fields_of_turns {before after : DecodeState × Octets}
    (turns : Relation.ReflTransGen (TurnStep fault stack) before after) :
    Decode.fields fault stack before.1 before.2 = Decode.fields fault stack after.1 after.2 := by
  induction turns with
  | refl => rfl
  | tail _ step ih =>
      obtain ⟨byte, rest, shape, turn⟩ := step
      rw [ih, shape, Decode.fields_cons, turn]
      rfl

theorem escapes_fields (orderly : Orderly fault) {self : DecodeState} {octets : Octets}
    (consistent : DynamicTable.Consistent self.table) :
    Escapes (Decode.fields fault stack self octets) ↔ ReachesHazard fault stack self octets := by
  constructor
  · intro escapes
    obtain ⟨count, length⟩ : ∃ count, octets.length = count := ⟨_, rfl⟩
    induction count using Nat.strong_induction_on generalizing self octets with
    | _ count ih =>
        cases octets with
        | nil =>
            exfalso
            cases fault with
            | none => exact not_escapes_ok _ escapes
            | some exn => exact (escapes_error exn).mp escapes (orderly exn rfl)
        | cons byte rest =>
            rw [Decode.fields_cons, escapes_bind, escapes_field orderly consistent] at escapes
            rcases escapes with hazard | ⟨⟨next, after⟩, turn, escapes⟩
            · exact ⟨self, byte, rest, .refl, hazard⟩
            · have shorter := Decode.field_length turn
              rw [List.length_cons] at length
              obtain ⟨state, byte', rest', turns, hazard⟩ :=
                ih after.length (by omega) (field_consistent consistent turn) escapes rfl
              exact ⟨state, byte', rest', .head ⟨byte, rest, rfl, turn⟩ turns, hazard⟩
  · rintro ⟨state, byte, rest, turns, hazard⟩
    rw [fields_of_turns turns, Decode.fields_cons, escapes_bind]
    exact .inl ((escapes_field orderly (consistent_of_turns turns consistent)).mpr hazard)

-- The index `2 ^ 31` is no `Positive`.
example : (decode none 65536 DynamicTable.empty .initial [0xff, 0x81, 0xff, 0xff, 0xff, 0x07]).isOk =
    false := by
  decide +kernel

end

end Hpack
end Http2
end AdaWebServer

import AdaWebServer.Foundations.Execution
import AdaWebServer.Http2.Hpack.Rfc7541
import AdaWebServer.Http2.Hpack.Turns

/-!
# The capacity of the decoding table

`Decode` against the decoding of RFC 7541, on header blocks interleaved with the settings frames of
the peer.  The same settings record bounds the decoding table and is overwritten by these frames,
so the header lists agree as long as the frames leave the announced table size in place.
-/

namespace AdaWebServer
namespace Http2
namespace Hpack

open Execution WeightedQueue Rfc7541

/-- Name and value of an entry. -/
def NameValue.field (self : NameValue) : Field := (self.name, self.value)

/-! ## Strings -/

/-- `Get_String_Literal` reads the string: it fits on the stack, is no longer than a `Natural`, and
passes the checks of the Huffman decoder, whose result fits on the stack as well. -/
structure Readable (stack : Nat) (str : StringLiteral) : Prop where
  on_stack : str.payload.length ≤ stack
  length_le : str.payload.length ≤ naturalLast
  nonempty : str.huffman → str.value ≠ []
  no_eos : str.huffman → Huffman.eosFound 0 (Huffman.coded str.value) = false
  result_le : str.huffman → ResultFits stack (Huffman.coded str.value).length

instance (stack : Nat) (str : StringLiteral) : Decidable (Readable stack str) :=
  decidable_of_iff
    (str.payload.length ≤ stack ∧ str.payload.length ≤ naturalLast ∧
      (str.huffman → str.value ≠ []) ∧
      (str.huffman → Huffman.eosFound 0 (Huffman.coded str.value) = false) ∧
      (str.huffman → ResultFits stack (Huffman.coded str.value).length))
    ⟨fun ⟨on_stack, length_le, nonempty, no_eos, result_le⟩ =>
        ⟨on_stack, length_le, nonempty, no_eos, result_le⟩,
      fun ⟨on_stack, length_le, nonempty, no_eos, result_le⟩ =>
        ⟨on_stack, length_le, nonempty, no_eos, result_le⟩⟩

theorem getStringLiteral_readable {stack : Nat} {str : StringLiteral}
    (readable : Readable stack str) (fault : Option Exn) (rest : Octets) :
    Decode.getStringLiteral fault stack (str.octets ++ rest) = .ok (str.value, rest) := by
  have clear : Clear str.flags 7 := by
    unfold StringLiteral.flags
    split <;> decide
  have on_stack := readable.on_stack
  rw [StringLiteral.octets,
    getStringLiteral_of_sentInteger (sentInteger_encode clear readable.length_le),
    if_neg (by omega)]
  by_cases huffman : str.huffman = true
  · have payload_eq : str.payload = Huffman.coded str.value := if_pos huffman
    have flags_eq : str.flags = 0x80 := if_pos huffman
    rw [if_pos (by rw [flags_eq]; decide), payload_eq,
      decodeOn_coded (readable.nonempty huffman), if_pos (readable.result_le huffman),
      Huffman.decode_coded (readable.nonempty huffman) (readable.result_le huffman).1,
      readable.no_eos huffman]
    rfl
  · have payload_eq : str.payload = str.value := if_neg huffman
    have flags_eq : str.flags = 0 := if_neg huffman
    have length_le := readable.length_le
    rw [payload_eq] at length_le
    rw [if_neg (by rw [flags_eq]; decide), payload_eq, natural_of_le length_le]
    rfl

/-! ## The tables side by side -/

/-- The decoder holds the entries that RFC 7541 defines, and possibly older ones. -/
structure Mirrors (limit : Nat) (rfc : Decoder) (table : DynamicTable) (settings : Connection) :
    Prop where
  consistent : DynamicTable.Consistent table
  /-- The names of the entries are in lower case. -/
  lower : ∀ item ∈ table.tIN, toLower item.name = item.name
  /-- The entries of RFC 7541 are the most recent ones. -/
  recent : rfc.entries <:+ table.tIN.map NameValue.field
  /-- The maximum size of the table is large enough. -/
  maximum : rfc.maxSize ≤ settings.dynamicHeaderTableSize
  /-- Every size update within the announced limit is accepted. -/
  allowed : limit ≤ settings.headerTableSize

theorem staticTable_eq : static.tIN.map NameValue.field = staticTable := by
  decide +kernel

theorem static_lower : ∀ item ∈ static.tIN, toLower item.name = item.name := by
  decide +kernel

theorem staticTable_length : staticTable.length = staticTableSize := by
  decide +kernel

/-- What RFC 7541 finds at an index is found there by the tables. -/
theorem Mirrors.lookup {limit : Nat} {rfc : Decoder} {table : DynamicTable} {settings : Connection}
    (mirrors : Mirrors limit rfc table settings) {index : Nat} {field : Field}
    (found : rfc.lookup index = some field) :
    1 ≤ index ∧ index ≤ naturalLast ∧
      ∃ item : NameValue, item.field = field ∧ toLower item.name = item.name ∧
        ∀ what, table.entry what index = .ok item := by
  have index_le := mirrors.consistent.index_le
  have length_eq := mirrors.consistent.length_eq
  unfold Decoder.lookup at found
  rw [staticTable_length] at found
  split_ifs at found with zero small
  · rw [← staticTable_eq, List.getElem?_map] at found
    obtain ⟨item, designated, item_field⟩ := Option.map_eq_some_iff.mp found
    refine ⟨by omega, by omega, item, item_field,
      static_lower item (List.mem_of_getElem? designated), ?_⟩
    intro what
    rw [DynamicTable.entry_static small, DynamicTable.entryAt, designated]
  · obtain ⟨older, split⟩ := mirrors.recent
    have within : index - staticTableSize - 1 < rfc.entries.length := by
      have := (List.getElem?_eq_some_iff.mp found).1
      simpa using this
    have length_split : older.length + rfc.entries.length = table.tIN.length := by
      have := congrArg List.length split
      simpa using this
    obtain ⟨item, position, _⟩ := DynamicTable.entry_dynamic mirrors.consistent index
      (by omega) (by omega) "name"
    have same : (table.tIN.map NameValue.field)[staticTableSize + table.length - index]? =
        some field := by
      rw [← split, List.getElem?_append_right (by omega)]
      rw [List.getElem?_reverse (by omega)] at found
      rw [← found]
      congr 1
      omega
    rw [List.getElem?_map, position] at same
    refine ⟨by omega, by omega, item, Option.some.inj same,
      mirrors.lower item (List.mem_of_getElem? position), ?_⟩
    intro what
    obtain ⟨other, other_position, entered⟩ := DynamicTable.entry_dynamic mirrors.consistent
      index (by omega) (by omega) what
    rw [position] at other_position
    rw [entered, Option.some.inj other_position]

/-- Inserting the same entry on both sides. -/
theorem Mirrors.insert {limit : Nat} {rfc : Decoder} {table after : DynamicTable}
    {settings : Connection} (mirrors : Mirrors limit rfc table settings) {name value : Text}
    (lower : toLower name = name)
    (inserted : table.insert settings name value = .ok after) :
    Mirrors limit (rfc.insert (name, value)) after settings := by
  obtain ⟨item, item_name, item_value, _, consistent, kept, _⟩ :=
    DynamicTable.insert_eq_ok mirrors.consistent inserted
  have item_field : item.field = (name, value) := by
    rw [NameValue.field, item_name, item_value, lower]
  have weights : ∀ (limit : Nat) (queue : List NameValue),
      (trim NameValue.size limit queue).map NameValue.field =
        trim entrySize limit (queue.map NameValue.field) := by
    intro limit queue
    exact map_trim entrySize NameValue.field (fun item => rfl) limit queue
  refine ⟨consistent, ?_, ?_, mirrors.maximum, mirrors.allowed⟩
  · intro other member
    rw [kept] at member
    rcases List.mem_append.mp ((trim_suffix _ _).subset member) with old | new
    · exact mirrors.lower other old
    · rw [List.mem_singleton.mp new, item_name, toLower_idem]
  · rw [kept, weights, List.map_append, List.map_singleton, item_field]
    obtain ⟨older, split⟩ := mirrors.recent
    exact trim_suffix_trim mirrors.maximum ⟨older, by rw [← split, List.append_assoc]⟩

/-- A size update on both sides. -/
theorem Mirrors.resize {limit size : Nat} {rfc : Decoder} {table : DynamicTable}
    {settings : Connection} (mirrors : Mirrors limit rfc table settings) :
    Mirrors limit (rfc.resize size) table (settings.setDynamicHeaderTableSize size) where
  consistent := mirrors.consistent
  lower := mirrors.lower
  recent := (trim_suffix _ _).trans mirrors.recent
  maximum := le_rfl
  allowed := mirrors.allowed

/-! ## A header block -/

/-- The name of a literal header field is readable. -/
def NameReadable (stack : Nat) : NameRef → Prop
  | .index _ => True
  | .new name => Readable stack name

instance (stack : Nat) (ref : NameRef) : Decidable (NameReadable stack ref) :=
  match ref with
  | .index _ => inferInstanceAs (Decidable True)
  | .new name => inferInstanceAs (Decidable (Readable stack name))

/-- The decoding table can take an entry whose name is in lower case. -/
def Insertable (table : DynamicTable) (name value : Text) : Prop :=
  toLower name = name ∧ ∃ item ∈ (nameValue name value).toOption, table.Takes item

instance (table : DynamicTable) (name value : Text) : Decidable (Insertable table name value) :=
  inferInstanceAs (Decidable (_ ∧ _))

/-- The decoder can take a header block: its strings are readable, the entries that it inserts can
be inserted, and the headers can be counted. -/
def Manageable (stack : Nat) : Decoder → DecodeState → List Representation → Prop
  | _, _, [] => True
  | rfc, self, .sizeUpdate size :: block =>
      Manageable stack (rfc.resize size)
        { self with settings := self.settings.setDynamicHeaderTableSize size } block
  | rfc, self, .indexed index :: block =>
      self.headers.length + 1 ≤ naturalLast ∧
        ∀ field ∈ rfc.lookup index,
          Manageable stack rfc (self.received self.table field.1 field.2) block
  | rfc, self, .literal indexing ref value :: block =>
      self.headers.length + 1 ≤ naturalLast ∧ NameReadable stack ref ∧ Readable stack value ∧
        ∀ name ∈ rfc.nameOf ref,
          if indexing = .incremental then
            Insertable self.table name value.value ∧
              ∀ table ∈ (self.table.insert self.settings name value.value).toOption,
                Manageable stack (rfc.insert (name, value.value))
                  (self.received table name value.value) block
          else
            Manageable stack rfc (self.received self.table name value.value) block

instance decidableManageable (stack : Nat) : ∀ (rfc : Decoder) (self : DecodeState)
    (block : List Representation), Decidable (Manageable stack rfc self block)
  | _, _, [] => isTrue trivial
  | rfc, self, .sizeUpdate size :: block =>
      decidableManageable stack (rfc.resize size)
        { self with settings := self.settings.setDynamicHeaderTableSize size } block
  | rfc, self, .indexed index :: block =>
      have (field : Field) := decidableManageable stack rfc
        (self.received self.table field.1 field.2) block
      inferInstanceAs (Decidable (_ ∧ ∀ field ∈ rfc.lookup index, _))
  | rfc, self, .literal _ ref value :: block =>
      have (table : DynamicTable) (name : Text) := decidableManageable stack
        (rfc.insert (name, value.value)) (self.received table name value.value) block
      have (name : Text) := decidableManageable stack rfc
        (self.received self.table name value.value) block
      inferInstanceAs (Decidable (_ ∧ _ ∧ _ ∧ ∀ name ∈ rfc.nameOf ref, ite _ _ _))

/-- The name of a literal header field is read after its index. -/
theorem getName_readable {limit stack : Nat} {rfc : Decoder} {table : DynamicTable}
    {settings : Connection} (mirrors : Mirrors limit rfc table settings) {ref : NameRef}
    {name : Text} (resolved : rfc.nameOf ref = some name) (readable : NameReadable stack ref)
    (fault : Option Exn) (rest : Octets) :
    Decode.getName fault stack table ref.position (ref.octets ++ rest) = .ok (name, rest) := by
  cases ref with
  | index index =>
      obtain ⟨field, found, field_name⟩ := Option.map_eq_some_iff.mp resolved
      obtain ⟨nonzero, small, item, item_field, _, designated⟩ := mirrors.lookup found
      have item_name : item.name = name := by
        rw [← field_name, ← item_field, NameValue.field]
      rw [← item_name]
      exact getName_index nonzero small (designated "name") rest
  | new str =>
      cases resolved
      exact (getName_literal _).trans (getStringLiteral_readable readable fault rest)

theorem position_le {limit : Nat} {rfc : Decoder} {table : DynamicTable}
    {settings : Connection} (mirrors : Mirrors limit rfc table settings) {ref : NameRef}
    {name : Text} (resolved : rfc.nameOf ref = some name) : ref.position ≤ naturalLast := by
  cases ref with
  | index index =>
      obtain ⟨field, found, _⟩ := Option.map_eq_some_iff.mp resolved
      exact (mirrors.lookup found).2.1
  | new str => exact Nat.zero_le _

section Literal

variable {limit stack : Nat} {rfc : Decoder} {self : DecodeState} {ref : NameRef} {name : Text}
  {value : StringLiteral}

/-- A literal field with incremental indexing is decoded and its entry inserted. -/
theorem turn_incremental (mirrors : Mirrors limit rfc self.table self.settings)
    (resolved : rfc.nameOf ref = some name) (name_readable : NameReadable stack ref)
    (value_readable : Readable stack value) (count : self.headers.length + 1 ≤ naturalLast)
    {table : DynamicTable}
    (inserted : self.table.insert self.settings name value.value = .ok table) :
    Turn stack self (Representation.literal .incremental ref value).octets
      (self.received table name value.value) := by
  intro fault rest
  have sent : SentInteger ref.position 0x40 6 (PrefixInteger.encode 6 0x40 ref.position) :=
    sentInteger_encode (by decide) (position_le mirrors resolved)
  have octets_eq : (Representation.literal .incremental ref value).octets =
      PrefixInteger.encode 6 0x40 ref.position ++ (ref.octets ++ value.octets) := rfl
  rw [octets_eq, List.append_assoc, fields_incremental sent, List.append_assoc,
    getName_readable mirrors resolved name_readable]
  simp only [ok_bind]
  rw [getStringLiteral_readable value_readable]
  simp only [ok_bind, inserted, addHeader_of_lt count, DecodeState.received]

/-- A literal field without indexing is decoded. -/
theorem turn_plain {indexing : Indexing} (plain : indexing ≠ .incremental)
    (mirrors : Mirrors limit rfc self.table self.settings)
    (resolved : rfc.nameOf ref = some name) (name_readable : NameReadable stack ref)
    (value_readable : Readable stack value) (count : self.headers.length + 1 ≤ naturalLast) :
    Turn stack self (Representation.literal indexing ref value).octets
      (self.received self.table name value.value) := by
  intro fault rest
  have width : indexing.width = 4 := by cases indexing <;> trivial
  have kind : indexing.flags.toNat / 16 < 2 := by cases indexing <;> trivial
  have clear : Clear indexing.flags 4 := by
    cases indexing with
    | incremental => exact absurd rfl plain
    | without => decide
    | never => decide
  have sent : SentInteger ref.position indexing.flags 4
      (PrefixInteger.encode 4 indexing.flags.toNat ref.position) :=
    sentInteger_encode clear (position_le mirrors resolved)
  rw [Representation.octets, width, List.append_assoc, fields_plain sent kind, List.append_assoc,
    getName_readable mirrors resolved name_readable]
  simp only [ok_bind]
  rw [getStringLiteral_readable value_readable]
  simp only [ok_bind, addHeader_of_lt count, DecodeState.received]

end Literal

/-- What decoding a header block has done, besides adding headers. -/
structure Follows (limit : Nat) (before after : Decoder) (state final : DecodeState) : Prop where
  mirrors : Mirrors limit after final.table final.settings
  /-- The limit of the size updates is unchanged. -/
  limit_eq : final.settings.headerTableSize = state.settings.headerTableSize
  /-- The maximum size changes as RFC 7541 says. -/
  maximum_eq : state.settings.dynamicHeaderTableSize = before.maxSize →
    final.settings.dynamicHeaderTableSize = after.maxSize

/-- A manageable header block is decoded into the headers that RFC 7541 defines. -/
theorem fields_blockOctets {limit stack : Nat} (limit_le : limit ≤ naturalLast)
    {block : List Representation} {rfc after : Decoder} {self : DecodeState} {started : Bool}
    {headers : Headers} (mirrors : Mirrors limit rfc self.table self.settings)
    (first : started = false → self.data = false) (manageable : Manageable stack rfc self block)
    (defined : rfc.decode limit started block = some (after, headers)) :
    ∃ final, Decode.fields none stack self (blockOctets block) = .ok final ∧
      final.headers = self.headers ++ headers ∧ Follows limit rfc after self final := by
  induction block generalizing rfc self started headers with
  | nil =>
      cases defined
      exact ⟨self, rfl, (List.append_nil _).symm, mirrors, rfl, id⟩
  | cons representation block ih =>
      -- One more header in front of those of the rest of the block.
      have received : ∀ (rfc' : Decoder) {next : DecodeState} {name value : Text}
          {fields : Headers}, Turn stack self representation.octets next →
          next.headers = self.headers ++ [(name, value)] → next.settings = self.settings →
          rfc'.maxSize = rfc.maxSize →
          Mirrors limit rfc' next.table next.settings → Manageable stack rfc' next block →
          rfc'.decode limit true block = some (after, fields) →
          headers = (name, value) :: fields →
          ∃ final, Decode.fields none stack self (blockOctets (representation :: block)) =
            .ok final ∧ final.headers = self.headers ++ headers ∧
            Follows limit rfc after self final := by
        intro rfc' next name value fields turn added kept same_max mirrors' manageable' defined'
          split
        obtain ⟨final, done, listed, follows⟩ := ih mirrors' (by simp) manageable' defined'
        refine ⟨final, (turn none _).trans done, ?_, follows.mirrors, ?_, ?_⟩
        · rw [listed, added, split, List.append_assoc, List.singleton_append]
        · rw [follows.limit_eq, kept]
        · intro same
          exact follows.maximum_eq (by rw [kept, same, same_max])
      cases representation with
      | sizeUpdate size =>
          simp only [Decoder.decode, Option.ite_none_right_eq_some] at defined
          obtain ⟨⟨rfl, allowed⟩, defined⟩ := defined
          have small : size ≤ naturalLast := allowed.trans limit_le
          have turn : Turn stack self (Representation.sizeUpdate size).octets
              { self with settings := self.settings.setDynamicHeaderTableSize size } :=
            turn_sizeUpdate (sentInteger_encode (by decide) small) small
              (allowed.trans mirrors.allowed) (first rfl)
          obtain ⟨next, next_eq⟩ : ∃ next : DecodeState, next =
              { self with settings := self.settings.setDynamicHeaderTableSize size } := ⟨_, rfl⟩
          rw [Manageable, ← next_eq] at manageable
          rw [← next_eq] at turn
          have resized : Mirrors limit (rfc.resize size) next.table next.settings := by
            rw [next_eq]
            exact mirrors.resize
          have next_first : false = false → next.data = false := by
            rw [next_eq]
            exact first
          obtain ⟨final, done, listed, follows⟩ := ih resized next_first manageable defined
          rw [next_eq] at listed
          refine ⟨final, (turn none _).trans done, listed, follows.mirrors, ?_, ?_⟩
          · rw [follows.limit_eq, next_eq]
            rfl
          · intro _
            exact follows.maximum_eq (by rw [next_eq]; rfl)
      | indexed index =>
          simp only [Decoder.decode, Option.bind_eq_bind, Option.bind_eq_some_iff, Option.pure_def,
            Option.some.injEq, Prod.exists, Prod.mk.injEq] at defined
          obtain ⟨name, value, found, _, fields, defined, rfl, rfl⟩ := defined
          obtain ⟨count, manageable⟩ := manageable
          obtain ⟨nonzero, small, item, item_field, _, designated⟩ := mirrors.lookup found
          cases item_field
          have turn := turn_indexed stack (sentInteger_encode (show Clear 0x80 7 by decide) small)
            nonzero small (designated "name-value") count
          exact received rfc turn rfl rfl rfl mirrors (manageable _ found) defined rfl
      | literal indexing ref value =>
          simp only [Decoder.decode, Option.bind_eq_bind, Option.bind_eq_some_iff, Option.pure_def,
            Option.some.injEq, Prod.exists, Prod.mk.injEq] at defined
          obtain ⟨name, resolved, _, fields, defined, rfl, rfl⟩ := defined
          cases indexing with
          | incremental =>
              obtain ⟨count, name_readable, value_readable, manageable⟩ := manageable
              have manageable := manageable name resolved
              rw [if_pos rfl] at manageable
              obtain ⟨⟨lower, item, built, takes⟩, manageable⟩ := manageable
              have built : nameValue (toLower name) value.value = .ok item :=
                lower.symm ▸ mem_toOption_iff.mp built
              obtain ⟨table, inserted, _⟩ :=
                DynamicTable.insert_spec mirrors.consistent self.settings built takes
              have turn := turn_incremental mirrors resolved name_readable value_readable count
                inserted
              exact received (rfc.insert (name, value.value)) turn rfl rfl rfl
                (mirrors.insert lower inserted) (manageable table (mem_toOption_iff.mpr inserted))
                defined rfl
          | without =>
              obtain ⟨count, name_readable, value_readable, manageable⟩ := manageable
              have turn := turn_plain (show Indexing.without ≠ .incremental by simp) mirrors
                resolved name_readable value_readable count
              exact received rfc turn rfl rfl rfl mirrors (manageable name resolved) defined rfl
          | never =>
              obtain ⟨count, name_readable, value_readable, manageable⟩ := manageable
              have turn := turn_plain (show Indexing.never ≠ .incremental by simp) mirrors
                resolved name_readable value_readable count
              exact received rfc turn rfl rfl rfl mirrors (manageable name resolved) defined rfl

/-! ## Settings frames and header blocks in any order -/

/-- What the peer sends. -/
inductive DecodingEvent where
  /-- A settings frame. -/
  | settings (entries : SettingsSet)
  /-- A header block. -/
  | block (block : List Representation)

/-- The receiving side of a connection. -/
structure Session where
  /-- The decoding table. -/
  table : DynamicTable
  settings : Connection
  /-- The header lists decoded so far. -/
  decoded : List Headers

/-- Receive a settings frame or a header block. -/
def Session.receive (stack : Nat) (self : Session) : DecodingEvent → Except Exn Session
  | .settings entries => do
      let settings ← self.settings.set entries
      return { self with settings }
  | .block block => do
      let final ← decode none stack self.table self.settings (blockOctets block)
      return {
        table := final.table
        settings := final.settings
        decoded := self.decoded ++ [final.headers] }

/-- The same side according to RFC 7541. -/
structure Reference where
  decoder : Decoder
  /-- The header lists defined so far. -/
  defined : List (List Field)

/-- Receive a settings frame, which does not concern the decoder, or a header block. -/
def Reference.receive (limit : Nat) (self : Reference) : DecodingEvent → Option Reference
  | .settings _ => some self
  | .block block => do
      let (decoder, fields) ← self.decoder.decode limit false block
      return { decoder, defined := self.defined ++ [fields] }

/-- Both sides, and the exception that has ended the session. -/
structure SideBySide where
  session : Except Exn Session
  reference : Reference

namespace SideBySide

/-- Both sides before anything has been received. -/
def start (config : Config) : SideBySide where
  session := .ok ⟨.empty, .configured config, []⟩
  reference := ⟨⟨[], config.headerTableSize⟩, []⟩

/-- Both sides receive the same, which must be valid for the announced size. -/
def receive (stack : Nat) (config : Config) (self : SideBySide) (event : DecodingEvent) :
    Except Unit SideBySide :=
  match self.reference.receive config.headerTableSize event with
  | some reference => .ok ⟨self.session >>= (·.receive stack event), reference⟩
  | none => .error ()

/-- The session has decoded what RFC 7541 defines, with the limits of RFC 7541. -/
def AsDefined (config : Config) (state : SideBySide) : Prop :=
  match state.session with
  | .ok session =>
      session.decoded = state.reference.defined ∧
        session.settings.headerTableSize = config.headerTableSize ∧
        session.settings.dynamicHeaderTableSize = state.reference.decoder.maxSize
  | .error _ => False

instance (config : Config) (state : SideBySide) : Decidable (AsDefined config state) := by
  unfold AsDefined
  split <;> infer_instance

/-- A settings frame leaves the announced table size in place, and finds it in force. -/
def LeavesCapacity (config : Config) (reference : Reference) (entries : SettingsSet) : Prop :=
  (∀ value ∈ Connection.lastValue .headerTableSize entries, value = config.headerTableSize) ∧
    reference.decoder.maxSize = config.headerTableSize

instance (config : Config) (reference : Reference) (entries : SettingsSet) :
    Decidable (LeavesCapacity config reference entries) :=
  inferInstanceAs (Decidable (_ ∧ _))

/-- The limits after a settings frame are those of RFC 7541 exactly when the frame leaves the
announced size in place and finds it in force. -/
theorem limits_iff_leavesCapacity {config : Config} {reference : Reference}
    {settings after : Connection} {entries : SettingsSet}
    (recorded : settings.set entries = .ok after)
    (announced : settings.headerTableSize = config.headerTableSize) :
    after.headerTableSize = config.headerTableSize ∧
        after.dynamicHeaderTableSize = reference.decoder.maxSize ↔
      LeavesCapacity config reference entries := by
  obtain ⟨limit_eq, maximum_eq⟩ := Connection.set_headerTableSize recorded
  rw [maximum_eq, limit_eq, announced]
  unfold LeavesCapacity
  cases Connection.lastValue .headerTableSize entries with
  | none => simp [eq_comm]
  | some value =>
      simp only [Option.getD_some, Option.mem_def, Option.some.injEq, forall_eq']
      constructor
      · rintro ⟨rfl, in_force⟩
        exact ⟨rfl, in_force.symm⟩
      · rintro ⟨rfl, in_force⟩
        exact ⟨rfl, in_force.symm⟩

/-- What is received is within the means of the decoder, and the settings leave its capacity. -/
def Tolerable (stack : Nat) (config : Config) (state : SideBySide) : DecodingEvent → Prop
  | .settings entries =>
      Connection.Convertible entries ∧ LeavesCapacity config state.reference entries
  | .block block =>
      ∀ session ∈ state.session.toOption,
        Manageable stack state.reference.decoder ⟨session.table, session.settings, [], false⟩ block

instance (stack : Nat) (config : Config) (state : SideBySide) (event : DecodingEvent) :
    Decidable (Tolerable stack config state event) :=
  match event with
  | .settings entries =>
      inferInstanceAs (Decidable (Connection.Convertible entries ∧
        LeavesCapacity config state.reference entries))
  | .block block =>
      inferInstanceAs (Decidable (∀ session ∈ state.session.toOption,
        Manageable stack state.reference.decoder ⟨session.table, session.settings, [], false⟩
          block))

/-- What holds as long as everything received is tolerable. -/
structure Agree (config : Config) (state : SideBySide) (session : Session) : Prop where
  received : state.session = .ok session
  decoded : session.decoded = state.reference.defined
  mirrors : Mirrors config.headerTableSize state.reference.decoder session.table session.settings
  limit_eq : session.settings.headerTableSize = config.headerTableSize
  maximum_eq : session.settings.dynamicHeaderTableSize = state.reference.decoder.maxSize

theorem agree_start (config : Config) : ∃ session, Agree config (start config) session := by
  have configured := Connection.configured_eq config
  have limit_eq : (Connection.configured config).headerTableSize = config.headerTableSize := by
    rw [configured]
    rfl
  have maximum_eq : (Connection.configured config).dynamicHeaderTableSize =
      config.headerTableSize := by
    rw [configured]
  have mirrors : Mirrors config.headerTableSize ⟨[], config.headerTableSize⟩ .empty
      (Connection.configured config) :=
    ⟨DynamicTable.consistent_empty, by simp [DynamicTable.empty], List.suffix_rfl,
      maximum_eq.ge, limit_eq.ge⟩
  exact ⟨⟨.empty, .configured config, []⟩, rfl, rfl, mirrors, limit_eq, maximum_eq⟩

/-- Both sides agree after what is tolerable. -/
theorem agree_of_receive {stack : Nat} {config : Config} {before after : SideBySide}
    {event : DecodingEvent} (agree : ∃ session, Agree config before session)
    (step : Guarded (Tolerable stack config) (Computes (receive stack config)) before event after) :
    ∃ session, Agree config after session := by
  obtain ⟨session, received, decoded, mirrors, limit_eq, maximum_eq⟩ := agree
  obtain ⟨tolerable, step⟩ := step
  unfold Computes receive at step
  split at step
  · next reference referred =>
      cases step
      cases event with
      | settings entries =>
          cases referred
          obtain ⟨convertible, leaves⟩ := tolerable
          obtain ⟨settings, recorded⟩ := Connection.set_of_convertible convertible session.settings
          obtain ⟨limit_eq, maximum_eq⟩ := (limits_iff_leavesCapacity recorded limit_eq).mpr leaves
          refine ⟨{ session with settings }, ?_, decoded, ?_, limit_eq, maximum_eq⟩
          · simp only [received, ok_bind, Session.receive, recorded, pure_eq_ok]
          · exact ⟨mirrors.consistent, mirrors.lower, mirrors.recent, maximum_eq.ge, limit_eq.ge⟩
      | block block =>
          simp only [Reference.receive, Option.bind_eq_bind, Option.bind_eq_some_iff,
            Option.pure_def, Option.some.injEq, Prod.exists] at referred
          obtain ⟨decoder, fields, defined, rfl⟩ := referred
          have manageable := tolerable session (mem_toOption_iff.mpr received)
          obtain ⟨final, done, listed, follows⟩ := fields_blockOctets config.headerTableSize.2.2
            mirrors (fun _ => rfl) manageable defined
          refine ⟨⟨final.table, final.settings, session.decoded ++ [final.headers]⟩, ?_, ?_,
            follows.mirrors, follows.limit_eq.trans limit_eq, follows.maximum_eq maximum_eq⟩
          · simp only [received, ok_bind, Session.receive, decode, done, pure_eq_ok]
          · rw [listed, List.nil_append, decoded]
  · cases step

/-- What the session decodes, and the limits that it applies, are those of RFC 7541 as long as the
settings frames of the peer leave the announced table size in place and find it in force. -/
theorem asDefined_of_run {stack : Nat} {config : Config} {events : List DecodingEvent}
    {state : SideBySide}
    (run : Run (Guarded (Tolerable stack config) (Computes (receive stack config)))
      (start config) events state) :
    AsDefined config state := by
  obtain ⟨session, agree⟩ := run.invariant (fun state => ∃ session, Agree config state session)
    (agree_start config) agree_of_receive
  rw [AsDefined, agree.received]
  exact ⟨agree.decoded, agree.limit_eq, agree.maximum_eq⟩

/-- A block that adds an entry, with a Huffman coded name. -/
private def sentLiterally : List Representation :=
  [.literal .incremental (.new ⟨true, text "x-token"⟩) ⟨false, text "secret"⟩]

/-- The entry is found again after a settings frame with other settings. -/
theorem asDefined_after_settings :
    ∃ state, state.reference.defined =
        [[(text "x-token", text "secret")], [(text "x-token", text "secret")]] ∧
      AsDefined .default state := by
  obtain ⟨state, followed, defined⟩ : ∃ state ∈
      follow (Tolerable 65536 .default) (receive 65536 .default) (start .default)
        [.block sentLiterally, .settings [⟨.initialWindowSize, 1000⟩], .block [.indexed 62]],
      state.reference.defined =
        [[(text "x-token", text "secret")], [(text "x-token", text "secret")]] := by
    decide +kernel
  exact ⟨state, defined, asDefined_of_run (run_of_follow followed)⟩

/-- A settings frame that sets the table size to 0 makes the decoder forget the entry. -/
theorem settings_shrink_decoder :
    ∃ state, Run (Computes (receive 65536 .default)) (start .default)
        [.settings [⟨.headerTableSize, 0⟩], .block sentLiterally, .block [.indexed 62]] state ∧
      ¬ AsDefined .default state := by
  obtain ⟨state, followed, differs⟩ : ∃ state ∈
      follow (fun _ _ => True) (receive 65536 .default) (start .default)
        [.settings [⟨.headerTableSize, 0⟩], .block sentLiterally, .block [.indexed 62]],
      ¬ AsDefined .default state := by
    decide +kernel
  exact ⟨state, (run_of_follow followed).of_guarded, differs⟩

end SideBySide

end Hpack
end Http2
end AdaWebServer

import AdaWebServer.Http2.Hpack.Turns

/-!
# Round trip of header lists

The header lists of a connection are encoded one after the other on one dynamic table and decoded
on another.  Both tables go through the same insertions, so the decoder reads what was encoded as
long as every string that is sent can be sent and read back, and the counters of the table do not
overflow; otherwise some list is not returned.
-/

namespace AdaWebServer
namespace Http2
namespace Hpack

/-- A lower-case name without an equals sign, of a header that may be sent. -/
structure ValidHeader (header : Text × Text) : Prop where
  nonempty : header.1 ≠ []
  lower : toLower header.1 = header.1
  plain : 61 ∉ header.1

/-- A list of such headers, whose number is a `Natural`. -/
structure ValidHeaders (headers : Headers) : Prop where
  all : ∀ header ∈ headers, ValidHeader header
  count : headers.length ≤ naturalLast

theorem validHeader_iff {header : Text × Text} :
    ValidHeader header ↔ header.1 ≠ [] ∧ toLower header.1 = header.1 ∧ 61 ∉ header.1 :=
  ⟨fun valid => ⟨valid.1, valid.2, valid.3⟩, fun ⟨h₁, h₂, h₃⟩ => ⟨h₁, h₂, h₃⟩⟩

theorem validHeaders_iff {headers : Headers} : ValidHeaders headers ↔
    (∀ header ∈ headers, ValidHeader header) ∧ headers.length ≤ naturalLast :=
  ⟨fun valid => ⟨valid.1, valid.2⟩, fun ⟨h₁, h₂⟩ => ⟨h₁, h₂⟩⟩

instance (header : Text × Text) : Decidable (ValidHeader header) :=
  decidable_of_iff' _ validHeader_iff

instance (headers : Headers) : Decidable (ValidHeaders headers) :=
  decidable_of_iff' _ validHeaders_iff

/-! ## What is delivered -/

/-- The string can be sent and read back; the largest local arrays that fit on the stacks of the
sender and the receiver are given. -/
def Deliverable (sender receiver : Nat) (str : Text) : Prop :=
  Sent sender str ∧ ReadBack receiver str

instance (sender receiver : Nat) (str : Text) : Decidable (Deliverable sender receiver str) :=
  inferInstanceAs (Decidable (_ ∧ _))

/-- The strings of a header can be delivered, but for what the static table has. -/
def HeaderDeliverable (sender receiver : Nat) (header : Text × Text) : Prop :=
  DynamicTable.StaticPair header.1 header.2 ∨
    (DynamicTable.StaticName header.1 ∨ Deliverable sender receiver header.1) ∧
      Deliverable sender receiver header.2

instance (sender receiver : Nat) (header : Text × Text) :
    Decidable (HeaderDeliverable sender receiver header) :=
  inferInstanceAs (Decidable (_ ∨ _))

/-- What a header does to the dynamic table of either side. -/
def absorb (settings : Connection) (table : DynamicTable) (header : Text × Text) :
    Except Exn DynamicTable := do
  let (index, both, table) ← table.getNameValueIndex settings header.1 header.2
  if index = 0 ∨ both then return table else table.insert settings header.1 header.2

/-- A consistent table of names without an equals sign. -/
structure Regular (table : DynamicTable) : Prop where
  consistent : DynamicTable.Consistent table
  plain : ∀ item ∈ table.tIN, 61 ∉ item.name

/-- A table that holds nothing but what has been delivered. -/
structure Delivered (sender receiver : Nat) (table : DynamicTable) : Prop
    extends Regular table where
  names : ∀ item ∈ table.tIN,
    DynamicTable.StaticName item.name ∨ Deliverable sender receiver item.name
  values : ∀ item ∈ table.tIN, Deliverable sender receiver item.value

theorem delivered_empty (sender receiver : Nat) : Delivered sender receiver DynamicTable.empty where
  consistent := DynamicTable.consistent_empty
  plain := by simp [DynamicTable.empty]
  names := by simp [DynamicTable.empty]
  values := by simp [DynamicTable.empty]

/-- Inserting a delivered header. -/
theorem Delivered.insert {sender receiver : Nat} {settings : Connection}
    {table after : DynamicTable} {name value : Text} (delivered : Delivered sender receiver table)
    (valid : ValidHeader (name, value))
    (name_delivered : DynamicTable.StaticName name ∨ Deliverable sender receiver name)
    (value_delivered : Deliverable sender receiver value)
    (inserted : table.insert settings name value = .ok after) :
      Delivered sender receiver after := by
  obtain ⟨item, item_name, item_value, _, consistent, kept, _⟩ :=
    DynamicTable.insert_eq_ok delivered.consistent inserted
  have lower : toLower name = name := valid.lower
  rw [lower] at item_name
  have origin : ∀ other ∈ after.tIN, other ∈ table.tIN ∨ other = item := by
    intro other member
    rw [kept] at member
    have appended := (WeightedQueue.trim_suffix _ _).subset member
    simpa using appended
  refine ⟨⟨consistent, ?_⟩, ?_, ?_⟩
  · intro other member
    rcases origin other member with old | rfl
    · exact delivered.plain other old
    · rw [item_name]
      exact valid.plain
  · intro other member
    rcases origin other member with old | rfl
    · exact delivered.names other old
    · rw [item_name]
      exact name_delivered
  · intro other member
    rcases origin other member with old | rfl
    · exact delivered.values other old
    · rw [item_value]
      exact value_delivered

/-- A header that can be delivered is encoded as a turn of the decoder that returns it. -/
theorem header_delivered {sender receiver : Nat} {settings : Connection}
    {table after : DynamicTable} {name value : Text} (delivered : Delivered sender receiver table)
    (valid : ValidHeader (name, value))
    (deliverable : HeaderDeliverable sender receiver (name, value))
    (absorbed : absorb settings table (name, value) = .ok after) :
    Delivered sender receiver after ∧ ∃ octets,
      Encode.header sender settings table name value = .ok (octets, after) ∧
      ∀ self : DecodeState, self.table = table → self.settings = settings →
        self.headers.length + 1 ≤ naturalLast →
          Turn receiver self octets (self.received after name value) := by
  have lower : toLower name = name := valid.lower
  rw [absorb] at absorbed
  rw [Encode.header]
  rcases DynamicTable.lookupResult delivered.consistent delivered.plain settings valid.lower
    valid.plain value with
    ⟨found, nonzero, small, designated, names, values, origin⟩ |
    ⟨found, nonzero, small, designated, names, origin, unpaired⟩ | ⟨inserted, unnamed, unpaired⟩
  · next index item =>
      rw [found, ok_bind] at absorbed ⊢
      simp only [or_true, if_true, pure_eq_ok, Except.ok.injEq] at absorbed
      subst absorbed
      obtain ⟨octets, sent, spec⟩ := sendInteger_spec (show Clear 0x80 7 by decide) nonzero
        small
      refine ⟨delivered, octets, ?_, ?_⟩
      · simp only [if_neg (show ¬ index = 0 by omega), if_true, sent, ok_bind, pure_eq_ok]
      · rintro self rfl rfl count
        have turn := turn_indexed receiver spec nonzero small (designated _) count
        rwa [names, values] at turn
  · next index item =>
      rw [found, ok_bind] at absorbed ⊢
      have index_ne : ¬ index = 0 := by omega
      simp only [index_ne, Bool.false_eq_true, or_self, if_false] at absorbed
      obtain ⟨name_delivered, value_delivered⟩ := deliverable.resolve_left unpaired
      obtain ⟨octets, sent, spec⟩ := sendInteger_spec (show Clear 0x40 6 by decide) nonzero
        small
      obtain ⟨literal, value_sent, read⟩ := send_spec value_delivered.1
      refine ⟨delivered.insert valid name_delivered value_delivered absorbed, octets ++ literal,
        ?_, ?_⟩
      · have valued : value ≠ [] := value_delivered.1.nonempty
        simp only [index_ne, if_false, Bool.false_eq_true, sent, ok_bind, absorbed, ne_eq, valued,
          not_false_eq_true, if_true, value_sent, pure_eq_ok]
      · rintro self rfl rfl count fault rest
        rw [List.append_assoc, fields_incremental spec, getName_index nonzero small (designated _),
          ok_bind]
        simp only [read.read_back value_delivered.2, ok_bind, names, absorbed,
          addHeader_of_lt count]
        rfl
  · rw [inserted] at absorbed ⊢
    cases insertion : table.insert settings name value with
    | error exn =>
        rw [insertion] at absorbed
        cases absorbed
    | ok inserted =>
        rw [insertion, ok_bind, ok_bind] at absorbed
        simp only [true_or, if_true, pure_eq_ok, Except.ok.injEq] at absorbed
        subst absorbed
        obtain ⟨name_delivered, value_delivered⟩ := deliverable.resolve_left unpaired
        have name_delivered := name_delivered.resolve_left unnamed
        obtain ⟨nameLiteral, name_sent, name_read⟩ := send_spec name_delivered.1
        obtain ⟨valueLiteral, value_sent, value_read⟩ := send_spec value_delivered.1
        refine ⟨delivered.insert valid (.inr name_delivered) value_delivered insertion,
          0x40 :: nameLiteral ++ valueLiteral, ?_, ?_⟩
        · simp only [ok_bind, if_true, name_sent, value_sent, pure_eq_ok]
        · rintro self rfl rfl count fault rest
          have shape : 0x40 :: nameLiteral ++ valueLiteral ++ rest =
              [0x40] ++ (nameLiteral ++ (valueLiteral ++ rest)) := by simp
          rw [shape, fields_incremental sentInteger_newName, getName_literal,
            name_read.read_back name_delivered.2, ok_bind]
          simp only [value_read.read_back value_delivered.2, ok_bind, insertion,
            addHeader_of_lt count]
          rfl

/-! ## What is not delivered -/

/-- Encoding a header changes the table as the header does. -/
theorem header_absorbed {sender : Nat} {settings : Connection} {table after : DynamicTable}
    {name value : Text} {octets : Octets} (encoded : Encode.header sender settings table name
      value = .ok (octets, after)) :
    absorb settings table (name, value) = .ok after := by
  simp only [Encode.header, bind_eq_ok_iff, Prod.exists] at encoded
  obtain ⟨index, both, found, lookup, encoded⟩ := encoded
  rw [absorb, lookup, ok_bind]
  simp only []
  split_ifs at encoded with zero paired valued
  · simp only [bind_eq_ok_iff] at encoded
    obtain ⟨_, _, _, _, encoded⟩ := encoded
    cases encoded
    rw [if_pos (.inl zero)]
    rfl
  · simp only [bind_eq_ok_iff] at encoded
    obtain ⟨_, _, encoded⟩ := encoded
    cases encoded
    rw [if_pos (.inr paired)]
    rfl
  · simp only [bind_eq_ok_iff] at encoded
    obtain ⟨_, _, inserted, insertion, _, _, encoded⟩ := encoded
    cases encoded
    rw [if_neg (not_or.mpr ⟨zero, paired⟩), insertion]
  · simp only [bind_eq_ok_iff] at encoded
    obtain ⟨_, _, inserted, insertion, encoded⟩ := encoded
    cases encoded
    rw [if_neg (not_or.mpr ⟨zero, paired⟩), insertion]

theorem NoEmptyLiteral.append {front : Octets} (start : NoEmptyLiteral front) (back : Octets) :
    NoEmptyLiteral (front ++ back) := by
  obtain ⟨byte, tail, rfl, nonzero⟩ := start
  refine ⟨byte, tail ++ back, rfl, ?_⟩
  intro fault rest length rest' read
  rw [List.append_assoc] at read
  exact nonzero fault _ length rest' read

private theorem sendInteger_name_start {index : Nat} {octets : Octets}
    (sent : Encode.sendInteger index 0x40 6 = .ok octets) : NoEmptyLiteral octets := by
  obtain ⟨nonzero, small⟩ := sendInteger_bounds sent
  obtain ⟨other, other_sent, spec⟩ := sendInteger_spec (show Clear 0x40 6 by decide) nonzero
    small
  rw [sent] at other_sent
  cases other_sent
  exact noEmptyLiteral_indexedName small spec

/-- An encoded header does not begin like an empty literal. -/
theorem header_start {sender : Nat} {settings : Connection} {table after : DynamicTable}
    {name value : Text} {octets : Octets} (encoded : Encode.header sender settings table name
      value = .ok (octets, after)) :
    NoEmptyLiteral octets := by
  simp only [Encode.header, bind_eq_ok_iff, Prod.exists] at encoded
  obtain ⟨index, both, found, _, encoded⟩ := encoded
  split_ifs at encoded with zero paired valued
  · simp only [bind_eq_ok_iff] at encoded
    obtain ⟨_, _, _, _, encoded⟩ := encoded
    cases encoded
    exact noEmptyLiteral_literal _
  · simp only [bind_eq_ok_iff] at encoded
    obtain ⟨indexed, sent, encoded⟩ := encoded
    cases encoded
    obtain ⟨nonzero, small⟩ := sendInteger_bounds sent
    obtain ⟨other, other_sent, spec⟩ := sendInteger_spec (show Clear 0x80 7 by decide) nonzero
      small
    rw [sent] at other_sent
    cases other_sent
    exact noEmptyLiteral_indexed nonzero spec
  · simp only [bind_eq_ok_iff] at encoded
    obtain ⟨indexed, sent, _, _, _, _, encoded⟩ := encoded
    cases encoded
    exact (sendInteger_name_start sent).append _
  · simp only [bind_eq_ok_iff] at encoded
    obtain ⟨indexed, sent, _, _, encoded⟩ := encoded
    cases encoded
    exact sendInteger_name_start sent

/-- An encoded list is empty or does not begin like an empty literal. -/
theorem encode_start {sender : Nat} {settings : Connection} {table after : DynamicTable}
    {headers : Headers}
    {octets : Octets} (encoded : encode sender settings table headers = .ok (octets, after)) :
    octets = [] ∨ NoEmptyLiteral octets := by
  cases headers with
  | nil =>
      cases encoded
      exact .inl rfl
  | cons header headers =>
      simp only [encode, bind_eq_ok_iff, Prod.exists] at encoded
      obtain ⟨_, _, first, _, _, _, encoded⟩ := encoded
      cases encoded
      exact .inr ((header_start first).append _)

/-- The decoder does not return the header that was encoded. -/
def Lost (receiver : Nat) (self : DecodeState) (header : Text × Text) (octets : Octets) : Prop :=
  ∀ rest, rest = [] ∨ NoEmptyLiteral rest → ∀ final,
    Decode.fields none receiver self (octets ++ rest) = .ok final →
      ¬ self.headers ++ [header] <+: final.headers

/-- A name whose empty value was not sent gets another value. -/
private theorem lost_of_empty {receiver index : Nat} {self : DecodeState} {octets : Octets}
    {item : NameValue} (sent : SentInteger index 0x40 6 octets) (nonzero : 1 ≤ index)
    (small : index ≤ naturalLast) (designated : self.table.entry "name" index = .ok item) :
    Lost receiver self (item.name, []) octets := by
  intro rest start final read returned
  rw [fields_incremental sent, getName_index nonzero small designated, ok_bind] at read
  simp only [bind_eq_ok_iff, Prod.exists] at read
  obtain ⟨value, after, value_read, _, _, headers, add, read⟩ := read
  have value_ne : value ≠ [] := by
    rcases start with rfl | start
    · cases value_read
    · rw [← List.append_nil rest] at value_read
      exact getStringLiteral_ne_nil start value_read
  have added : headers = self.headers ++ [(item.name, value)] := by
    simp only [addHeader, bind_eq_ok_iff] at add
    obtain ⟨_, _, add⟩ := add
    cases add
    rfl
  have received : self.headers ++ [(item.name, value)] <+: final.headers :=
    added ▸ fields_headers read
  have same := List.prefix_of_prefix_length_le returned received (by simp)
  simp only [List.prefix_append_right_inj, List.cons_prefix_cons, Prod.mk.injEq, true_and] at same
  exact value_ne same.1.symm

/-- What makes the decoder raise is lost. -/
private theorem lost_of_error {receiver : Nat} {self : DecodeState} {octets : Octets}
    {header : Text × Text}
    (raises : ∀ rest, ∃ exn, Decode.fields none receiver self (octets ++ rest) = .error exn) :
    Lost receiver self header octets := by
  intro rest _ final read
  obtain ⟨exn, raised⟩ := raises rest
  rw [raised] at read
  cases read

/-- A header that cannot be delivered is not encoded, or it is lost. -/
theorem header_lost {sender receiver : Nat} {settings : Connection} {table after : DynamicTable}
    {name value : Text} {octets : Octets} (delivered : Delivered sender receiver table)
    (valid : ValidHeader (name, value))
    (undeliverable : ¬ HeaderDeliverable sender receiver (name, value))
    (encoded : Encode.header sender settings table name value = .ok (octets, after))
    {self : DecodeState} (same_table : self.table = table) :
    Lost receiver self (name, value) octets := by
  rw [Encode.header] at encoded
  rcases DynamicTable.lookupResult delivered.consistent delivered.plain settings valid.lower
    valid.plain value with
    ⟨found, nonzero, small, designated, names, values, origin⟩ |
    ⟨found, nonzero, small, designated, names, origin, unpaired⟩ | ⟨inserted, unnamed, unpaired⟩
  · next index item =>
      rcases origin with paired | member
      · exact absurd (.inl paired) undeliverable
      · refine absurd (.inr ⟨?_, ?_⟩) undeliverable
        · exact names ▸ delivered.names item member
        · exact values ▸ delivered.values item member
  · next index item =>
      obtain rfl : name = item.name := names.symm
      have name_delivered : DynamicTable.StaticName item.name ∨
        Deliverable sender receiver item.name :=
        origin.elim .inl (delivered.names item)
      rw [found, ok_bind] at encoded
      have index_ne : ¬ index = 0 := by omega
      simp only [index_ne, Bool.false_eq_true, if_false, bind_eq_ok_iff] at encoded
      obtain ⟨indexed, sent, inserted, insertion, encoded⟩ := encoded
      obtain ⟨other, other_sent, spec⟩ := sendInteger_spec (show Clear 0x40 6 by decide) nonzero
        small
      rw [sent] at other_sent
      cases other_sent
      subst same_table
      by_cases valued : value = []
      · subst valued
        simp only [ne_eq, not_true_eq_false, if_false] at encoded
        cases encoded
        exact lost_of_empty spec nonzero small (designated _)
      · simp only [ne_eq, valued, not_false_eq_true, if_true, bind_eq_ok_iff] at encoded
        obtain ⟨literal, value_sent, encoded⟩ := encoded
        cases encoded
        have sendable := sent_of_send value_sent
        have unread : ¬ ReadBack receiver value := fun back =>
          undeliverable (.inr ⟨name_delivered, sendable, back⟩)
        obtain ⟨same_literal, same_sent, read⟩ := send_spec sendable
        rw [value_sent] at same_sent
        cases same_sent
        refine lost_of_error fun rest => ?_
        obtain ⟨exn, refused⟩ := read.refused unread none rest
        rw [List.append_assoc, fields_incremental spec, getName_index nonzero small (designated _),
          ok_bind]
        simp only [refused]
        exact ⟨exn, rfl⟩
  · rw [inserted] at encoded
    simp only [bind_eq_ok_iff, Prod.exists] at encoded
    obtain ⟨_, _, _, ⟨inserted, _, equation⟩, encoded⟩ := encoded
    cases equation
    simp only [if_true, bind_eq_ok_iff] at encoded
    obtain ⟨nameLiteral, name_sent, valueLiteral, value_sent, encoded⟩ := encoded
    cases encoded
    have name_sendable := sent_of_send name_sent
    have value_sendable := sent_of_send value_sent
    obtain ⟨same_name, same_name_sent, name_read⟩ := send_spec name_sendable
    rw [name_sent] at same_name_sent
    cases same_name_sent
    obtain ⟨same_value, same_value_sent, value_read⟩ := send_spec value_sendable
    rw [value_sent] at same_value_sent
    cases same_value_sent
    refine lost_of_error fun rest => ?_
    have shape : 0x40 :: nameLiteral ++ valueLiteral ++ rest =
        [0x40] ++ (nameLiteral ++ (valueLiteral ++ rest)) := by simp
    rw [shape, fields_incremental sentInteger_newName, getName_literal]
    by_cases name_back : ReadBack receiver name
    · have unread : ¬ ReadBack receiver value := fun back =>
        undeliverable (.inr ⟨.inr ⟨name_sendable, name_back⟩, value_sendable, back⟩)
      obtain ⟨exn, refused⟩ := value_read.refused unread none rest
      rw [name_read.read_back name_back, ok_bind]
      simp only [refused]
      exact ⟨exn, rfl⟩
    · obtain ⟨exn, refused⟩ := name_read.refused name_back none (valueLiteral ++ rest)
      rw [refused]
      exact ⟨exn, rfl⟩

/-! ## Header lists -/

/-- The dynamic table takes the headers one after the other. -/
def absorbAll (settings : Connection) (table : DynamicTable) (headers : Headers) :
    Except Exn DynamicTable :=
  headers.foldlM (absorb settings) table

theorem absorbAll_cons (settings : Connection) (table : DynamicTable) (header : Text × Text)
    (headers : Headers) :
    absorbAll settings table (header :: headers) =
      absorb settings table header >>= fun next => absorbAll settings next headers := rfl

/-- Encoding a list changes the table as its headers do. -/
theorem encode_absorbed {sender : Nat} {settings : Connection} {headers : Headers}
    {table after : DynamicTable}
    {octets : Octets} (encoded : encode sender settings table headers = .ok (octets, after)) :
    absorbAll settings table headers = .ok after := by
  induction headers generalizing table octets with
  | nil =>
      cases encoded
      rfl
  | cons header headers ih =>
      simp only [encode, bind_eq_ok_iff, Prod.exists] at encoded
      obtain ⟨_, next, first, _, _, others, encoded⟩ := encoded
      cases encoded
      rw [absorbAll_cons, header_absorbed first, ok_bind, ih others]

/-- A list of headers that can be delivered is returned. -/
theorem encode_delivered {sender receiver : Nat} {settings : Connection} {headers : Headers}
    {table after : DynamicTable} (delivered : Delivered sender receiver table)
    (valid : ∀ header ∈ headers, ValidHeader header)
    (deliverable : ∀ header ∈ headers, HeaderDeliverable sender receiver header)
    (absorbed : absorbAll settings table headers = .ok after) :
    Delivered sender receiver after ∧ ∃ octets,
      encode sender settings table headers = .ok (octets, after) ∧
      ∀ self : DecodeState, self.table = table → self.settings = settings →
        self.headers.length + headers.length ≤ naturalLast →
          ∃ final, Decode.fields none receiver self octets = .ok final ∧ final.table = after ∧
            final.settings = settings ∧ final.headers = self.headers ++ headers := by
  induction headers generalizing table with
  | nil =>
      cases absorbed
      exact ⟨delivered, [], rfl, fun self same_table same_settings _ =>
        ⟨self, rfl, same_table, same_settings, by simp⟩⟩
  | cons header headers ih =>
      rw [absorbAll_cons, bind_eq_ok_iff] at absorbed
      obtain ⟨next, head_absorbed, tail_absorbed⟩ := absorbed
      obtain ⟨next_delivered, front, front_encoded, turn⟩ :=
        header_delivered delivered (valid header List.mem_cons_self)
          (deliverable header List.mem_cons_self) head_absorbed
      obtain ⟨after_delivered, back, back_encoded, read⟩ :=
        ih next_delivered (fun other member => valid other (List.mem_cons_of_mem _ member))
          (fun other member => deliverable other (List.mem_cons_of_mem _ member)) tail_absorbed
      refine ⟨after_delivered, front ++ back, ?_, ?_⟩
      · simp only [encode, front_encoded, ok_bind, back_encoded, pure_eq_ok]
      · intro self same_table same_settings count
        rw [List.length_cons] at count
        obtain ⟨final, done, table_eq, settings_eq, headers_eq⟩ :=
          read (self.received next header.1 header.2) rfl same_settings (by
            simp only [DecodeState.received, List.length_append, List.length_singleton]
            omega)
        refine ⟨final, ?_, table_eq, settings_eq, ?_⟩
        · rw [turn self same_table same_settings (by omega), done]
        · rw [headers_eq]
          simp [DecodeState.received]

/-- A list with a header that cannot be delivered is not returned. -/
theorem encode_lost {sender receiver : Nat} {settings : Connection} {headers : Headers}
    {table after : DynamicTable} {octets : Octets} (delivered : Delivered sender receiver table)
    (valid : ∀ header ∈ headers, ValidHeader header)
    (undeliverable : ¬ ∀ header ∈ headers, HeaderDeliverable sender receiver header)
    (encoded : encode sender settings table headers = .ok (octets, after))
    (self : DecodeState) {final : DecodeState} (same_table : self.table = table)
    (same_settings : self.settings = settings)
    (count : self.headers.length + headers.length ≤ naturalLast)
    (read : Decode.fields none receiver self octets = .ok final) :
    final.headers ≠ self.headers ++ headers := by
  induction headers generalizing table octets self with
  | nil => exact absurd (by simp) undeliverable
  | cons header headers ih =>
      simp only [encode, bind_eq_ok_iff, Prod.exists] at encoded
      obtain ⟨front, next, front_encoded, back, _, back_encoded, encoded⟩ := encoded
      cases encoded
      rw [List.length_cons] at count
      by_cases head_deliverable : HeaderDeliverable sender receiver header
      · obtain ⟨next_delivered, same_front, same_encoded, turn⟩ :=
          header_delivered delivered (valid header List.mem_cons_self) head_deliverable
            (header_absorbed front_encoded)
        rw [front_encoded] at same_encoded
        cases same_encoded
        rw [turn self same_table same_settings (by omega)] at read
        have missed := ih next_delivered
          (fun other member => valid other (List.mem_cons_of_mem _ member))
          (fun all => undeliverable fun other member =>
            (List.mem_cons.mp member).elim (fun same => same ▸ head_deliverable) (all other))
          back_encoded (self.received next header.1 header.2) rfl same_settings (by
            simp only [DecodeState.received, List.length_append, List.length_singleton]
            omega) read
        simpa [DecodeState.received] using missed
      · intro returned
        refine header_lost delivered (valid header List.mem_cons_self) head_deliverable
          front_encoded same_table back (encode_start back_encoded) final read ?_
        rw [returned]
        exact ⟨headers, by simp⟩

/-! ## Connections -/

/-- One side of the compressed headers of a connection. -/
structure Endpoint where
  /-- The settings of its connection. -/
  settings : Connection
  /-- Its dynamic table. -/
  table : DynamicTable

/-- An endpoint before the first header block. -/
def Endpoint.start (settings : Connection) : Endpoint where
  settings := settings
  table := DynamicTable.empty

/-- Every list is decoded into itself, and leaves the same entries in both dynamic tables, in the
same order and with the same size. -/
def RoundTrips (sender receiver : Nat) : Endpoint → Endpoint → List Headers → Prop
  | _, _, [] => True
  | encoder, decoder, headers :: lists =>
      match encode sender encoder.settings encoder.table headers with
      | .error _ => False
      | .ok (octets, table) =>
          match decode none receiver decoder.table decoder.settings octets with
          | .error _ => False
          | .ok final =>
              final.headers = headers ∧ final.table.tIN = table.tIN ∧
                final.table.size = table.size ∧
                RoundTrips sender receiver { encoder with table }
                  ⟨final.settings, final.table⟩ lists

instance RoundTrips.decidable (sender receiver : Nat) :
    ∀ (encoder decoder : Endpoint) (lists : List Headers),
      Decidable (RoundTrips sender receiver encoder decoder lists)
  | _, _, [] => isTrue trivial
  | encoder, decoder, headers :: lists =>
      match encoded : encode sender encoder.settings encoder.table headers with
      | .error _ => isFalse (by simp [RoundTrips, encoded])
      | .ok (octets, table) =>
          match decoded : decode none receiver decoder.table decoder.settings octets with
          | .error _ => isFalse (by simp [RoundTrips, encoded, decoded])
          | .ok final =>
              have := RoundTrips.decidable sender receiver { encoder with table }
                ⟨final.settings, final.table⟩ lists
              decidable_of_iff (final.headers = headers ∧ final.table.tIN = table.tIN ∧
                final.table.size = table.size ∧
                RoundTrips sender receiver { encoder with table }
                  ⟨final.settings, final.table⟩ lists)
                (by simp [RoundTrips, encoded, decoded])

/-- The strings of all headers can be delivered, and the counters of the dynamic table can take
every insertion. -/
def Conveyable (sender receiver : Nat) (settings : Connection) (table : DynamicTable)
    (lists : List Headers) : Prop :=
  (∀ headers ∈ lists, ∀ header ∈ headers, HeaderDeliverable sender receiver header) ∧
    (absorbAll settings table lists.flatten).isOk

instance (sender receiver : Nat) (settings : Connection) (table : DynamicTable)
    (lists : List Headers) :
    Decidable (Conveyable sender receiver settings table lists) :=
  inferInstanceAs (Decidable (_ ∧ _))

private theorem roundTrips_iff_of_delivered {sender receiver : Nat} {settings : Connection}
    {table : DynamicTable} (delivered : Delivered sender receiver table) {lists : List Headers}
    (valid : ∀ headers ∈ lists, ValidHeaders headers) :
    RoundTrips sender receiver ⟨settings, table⟩ ⟨settings, table⟩ lists ↔
      Conveyable sender receiver settings table lists := by
  induction lists generalizing table with
  | nil => exact iff_of_true trivial ⟨by simp, rfl⟩
  | cons headers lists ih =>
      have head_valid := valid headers List.mem_cons_self
      have tail_valid : ∀ others ∈ lists, ValidHeaders others :=
        fun others member => valid others (List.mem_cons_of_mem _ member)
      have split : absorbAll settings table (headers :: lists).flatten =
          absorbAll settings table headers >>= fun next =>
            absorbAll settings next lists.flatten := by
        rw [List.flatten_cons, absorbAll, List.foldlM_append]
        rfl
      constructor
      · intro returned
        rw [RoundTrips] at returned
        split at returned
        · exact returned.elim
        · next octets after encoded =>
            split at returned
            · exact returned.elim
            · next final decoded =>
                obtain ⟨same_headers, _, _, rest⟩ := returned
                have head_deliverable : ∀ header ∈ headers,
                  HeaderDeliverable sender receiver header := by
                  by_contra undeliverable
                  exact encode_lost delivered head_valid.all undeliverable encoded
                    ⟨table, settings, [], false⟩ rfl rfl
                    (by simpa using head_valid.count) decoded same_headers
                obtain ⟨after_delivered, same_octets, same_encoded, read⟩ :=
                  encode_delivered delivered head_valid.all head_deliverable
                    (encode_absorbed encoded)
                rw [encoded] at same_encoded
                cases same_encoded
                obtain ⟨same_final, done, table_eq, settings_eq, _⟩ :=
                  read ⟨table, settings, [], false⟩ rfl rfl (by simpa using head_valid.count)
                rw [decode, done] at decoded
                cases decoded
                rw [table_eq, settings_eq] at rest
                obtain ⟨tail_deliverable, tail_absorbed⟩ :=
                  (ih after_delivered tail_valid).mp rest
                refine ⟨?_, ?_⟩
                · intro others member
                  rcases List.mem_cons.mp member with rfl | later
                  · exact head_deliverable
                  · exact tail_deliverable others later
                · rw [split, encode_absorbed encoded]
                  exact tail_absorbed
      · rintro ⟨deliverable, absorbed⟩
        rw [split] at absorbed
        cases head_absorbed : absorbAll settings table headers with
        | error exn =>
            rw [head_absorbed] at absorbed
            cases absorbed
        | ok after =>
            rw [head_absorbed, ok_bind] at absorbed
            obtain ⟨after_delivered, octets, encoded, read⟩ :=
              encode_delivered delivered head_valid.all
                (deliverable headers List.mem_cons_self) head_absorbed
            obtain ⟨final, done, table_eq, settings_eq, headers_eq⟩ :=
              read ⟨table, settings, [], false⟩ rfl rfl (by simpa using head_valid.count)
            have rest := (ih after_delivered tail_valid).mpr
              ⟨fun others member => deliverable others (List.mem_cons_of_mem _ member), absorbed⟩
            rw [RoundTrips]
            simp only [encoded, decode, done]
            refine ⟨by simpa using headers_eq, by rw [table_eq], by rw [table_eq], ?_⟩
            rw [table_eq, settings_eq]
            exact rest

attribute [irreducible] RoundTrips

-- The code of a line feed, at a certain distance from an octet, is taken for an end of string.
example : ¬ RoundTrips 65536 65536 (.start .initial) (.start .initial)
    [[(text "cookie", text "aaaaaao\naaa")]] := by
  decide +kernel

end Hpack
end Http2
end AdaWebServer

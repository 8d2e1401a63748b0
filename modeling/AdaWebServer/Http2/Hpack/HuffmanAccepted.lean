import AdaWebServer.Http2.Hpack.HuffmanCode

/-!
# What the Huffman coder accepts

An octet string is an encoding if it consists of the codes of characters and less than eight ones behind
them.  `Decode` takes the end of string for a null character, and its test for the end of string looks at
octets and not at codes.
-/

namespace AdaWebServer
namespace Http2
namespace Huffman

open PrefixCode BitString

/-- The code of a character, or of the end of string. -/
def symbolBits : Option UInt8 → List Bool
  | some c => codeBits c
  | none => List.replicate 30 true

/-- The octets consist of the codes of some symbols, and less than eight ones behind them. -/
def Codes (symbols : List (Option UInt8)) (octets : Octets) : Prop :=
  ∃ padding < 8, ofOctets octets = symbols.flatMap symbolBits ++ List.replicate padding true

/-- The octets are an encoding of a string. -/
def Encodes (str : Text) (octets : Octets) : Prop := Codes (str.map some) octets

/-- The character that a symbol is decoded into. -/
def character (symbol : Option UInt8) : UInt8 := symbol.getD 0

theorem root_follow_symbolBits (symbol : Option UInt8) :
    root.follow (symbolBits symbol) = CodeTree.leaf (character symbol) := by
  cases symbol with
  | some c => exact root_follow_codeBits c
  | none => decide +kernel

theorem table_eos : (table[256]?.map Code.path) = some (symbolBits none) := by
  decide +kernel

theorem codeword_eq {path : List Bool} {c : UInt8} (reached : root.follow path = CodeTree.leaf c) :
    ∃ symbol, path = symbolBits symbol ∧ c = character symbol := by
  obtain ⟨word, among, path_eq, c_eq⟩ := root_leaf reached
  have word_eq : table[word.2]? = some word.1 := List.mem_zipIdx_iff_getElem?.mp among
  by_cases last : word.2 = 256
  · rw [last] at word_eq
    have path_last := table_eos
    rw [word_eq, Option.map_some, Option.some.injEq] at path_last
    exact ⟨none, path_eq.trans path_last, by rw [c_eq, characterAt, if_pos last]; rfl⟩
  · have bounded : word.2 < 256 := by
      have := (List.getElem?_eq_some_iff.mp word_eq).1
      rw [table_length] at this
      omega
    rw [characterAt, if_neg last] at c_eq
    refine ⟨some c, path_eq.trans ?_, rfl⟩
    rw [symbolBits, codeBits, code, List.get_eq_getElem]
    obtain ⟨inside, at_place⟩ := List.getElem?_eq_some_iff.mp word_eq
    simp only [c_eq, UInt8.toNat_ofNat', Nat.mod_eq_of_lt bounded, at_place]

theorem symbolBits_injective : Function.Injective symbolBits := by
  have apart : ∀ c, codeBits c ≠ symbolBits none := by
    intro c same
    have leaf := root_follow_symbolBits none
    rw [← same, root_follow_codeBits] at leaf
    cases leaf
    revert same
    decide +kernel
  intro left right same
  cases left with
  | none =>
      cases right with
      | none => rfl
      | some c => exact absurd same.symm (apart c)
  | some c =>
      cases right with
      | none => exact absurd same (apart c)
      | some c' =>
          have leaf := root_follow_codeBits c
          rw [show codeBits c = codeBits c' from same, root_follow_codeBits] at leaf
          cases leaf
          rfl

/-- Codes and the bits behind them can be read in one way only. -/
theorem symbols_unique {symbols other : List (Option UInt8)} {pending pending' : List Bool}
    (inner : ∃ zero one, root.follow pending = CodeTree.node zero one)
    (inner' : ∃ zero one, root.follow pending' = CodeTree.node zero one)
    (same : symbols.flatMap symbolBits ++ pending = other.flatMap symbolBits ++ pending') :
    symbols = other ∧ pending = pending' := by
  induction symbols generalizing other with
  | nil =>
      cases other with
      | nil => exact ⟨rfl, same⟩
      | cons symbol other =>
          obtain ⟨zero, one, at_node⟩ := inner
          rw [List.flatMap_nil, List.nil_append, List.flatMap_cons, List.append_assoc] at same
          rw [same] at at_node
          exact (CodeTree.not_codeword_of_node (root_follow_symbolBits symbol) at_node).elim
  | cons symbol symbols ih =>
      cases other with
      | nil =>
          obtain ⟨zero, one, at_node⟩ := inner'
          rw [List.flatMap_nil, List.nil_append, List.flatMap_cons, List.append_assoc] at same
          rw [← same] at at_node
          exact (CodeTree.not_codeword_of_node (root_follow_symbolBits symbol) at_node).elim
      | cons symbol' other =>
          rw [List.flatMap_cons, List.flatMap_cons, List.append_assoc, List.append_assoc] at same
          obtain ⟨first, rest⟩ := CodeTree.codeword_unique (root_follow_symbolBits symbol)
            (root_follow_symbolBits symbol') same
          obtain ⟨later, pending_eq⟩ := ih rest
          exact ⟨congrArg₂ _ (symbolBits_injective first) later, pending_eq⟩

theorem Codes.unique {symbols other : List (Option UInt8)} {octets : Octets}
    (codes : Codes symbols octets) (codes' : Codes other octets) : symbols = other := by
  obtain ⟨padding, small, bits_eq⟩ := codes
  obtain ⟨padding', small', bits_eq'⟩ := codes'
  exact (symbols_unique (root_follow_ones small) (root_follow_ones small')
    (bits_eq.symm.trans bits_eq')).1

/-- Short padding of ones is what `Decode` checks for. -/
theorem padding_iff {pending : List Bool} :
    (∃ padding < 8, pending = List.replicate padding true) ↔
      ¬7 < pending.length ∧ pending.any (! ·) = false := by
  constructor
  · rintro ⟨padding, small, rfl⟩
    refine ⟨by rw [List.length_replicate]; omega, ?_⟩
    simp [List.any_replicate]
  · rintro ⟨short, ones⟩
    refine ⟨pending.length, by omega, List.eq_replicate_of_mem fun bit among => ?_⟩
    have one := List.any_eq_false.mp ones bit among
    simpa using one

/-- `Decode` reads the codes of symbols, and raises `Protocol_Error` if its test for the end of string
fires or if the bits behind the codes are no padding. -/
theorem decode_cases {octets : Octets} (nonempty : octets ≠ [])
    (small : octets.length * 3 ≤ naturalLast) :
    (∃ symbols, Codes symbols octets ∧ eosFound 0 octets = false ∧
      decode octets = .ok (symbols.map character)) ∨
    ((eosFound 0 octets = true ∨ ∀ symbols, ¬Codes symbols octets) ∧
      ∃ exn, decode octets = .error exn ∧ exn.IsProtocolError) := by
  obtain ⟨final, run, decoded⟩ := decode_eq nonempty small
  have refused : ∀ {exn}, decode octets = .error exn →
      ∃ exn, decode octets = .error exn ∧ exn.IsProtocolError :=
    fun raised => ⟨_, raised, decode_total nonempty small raised⟩
  obtain ⟨words, bits_eq, symbols_eq, codewords⟩ := CodeTree.words_of_scan run
  have at_node : root.AtNode final := by
    have root_node' : root.AtNode ⟨[], []⟩ := by simpa [CodeTree.AtNode] using root_node
    obtain ⟨other, run', at_node⟩ :=
      CodeTree.scan_of_complete root_complete root_node root_node' (ofOctets octets)
    rw [run] at run'
    cases run'
    exact at_node
  obtain ⟨symbols, words_eq, characters_eq⟩ : ∃ symbols : List (Option UInt8),
      words.flatMap Prod.fst = symbols.flatMap symbolBits ∧
        words.map Prod.snd = symbols.map character := by
    clear bits_eq symbols_eq
    induction words with
    | nil => exact ⟨[], rfl, rfl⟩
    | cons word words ih =>
        obtain ⟨first, later⟩ := List.forall_mem_cons.mp codewords
        obtain ⟨symbols, words_eq, characters_eq⟩ := ih later
        obtain ⟨symbol, path_eq, character_eq⟩ := codeword_eq first
        refine ⟨symbol :: symbols, ?_, ?_⟩
        · rw [List.flatMap_cons, List.flatMap_cons, path_eq, words_eq]
        · rw [List.map_cons, List.map_cons, character_eq, characters_eq]
  rw [List.nil_append] at bits_eq symbols_eq
  rw [words_eq] at bits_eq
  rw [characters_eq] at symbols_eq
  by_cases found : eosFound 0 octets = true
  · rw [if_pos found] at decoded
    exact .inr ⟨.inl found, refused decoded⟩
  rw [if_neg found] at decoded
  by_cases padded : ∃ padding < 8, final.pending = List.replicate padding true
  · obtain ⟨short, ones⟩ := padding_iff.mp padded
    obtain ⟨padding, less, pending_eq⟩ := padded
    rw [if_neg short, ones, if_neg Bool.false_ne_true, symbols_eq] at decoded
    exact .inl ⟨symbols, ⟨padding, less, pending_eq ▸ bits_eq⟩, Bool.eq_false_iff.mpr found, decoded⟩
  · refine .inr ⟨.inr ?_, ?_⟩
    · rintro other ⟨padding, less, other_eq⟩
      refine padded ⟨padding, less, ?_⟩
      exact (symbols_unique at_node (root_follow_ones less) (bits_eq.symm.trans other_eq)).2
    · rw [padding_iff, not_and_or, not_not] at padded
      by_cases long : 7 < final.pending.length
      · rw [if_pos long] at decoded
        exact refused decoded
      · have zero := Bool.eq_true_of_not_eq_false (padded.resolve_left long)
        rw [if_neg long, if_pos zero] at decoded
        exact refused decoded

/-! ## When the coder does what it should -/

/-- The string is encoded, and decoded back. -/
def RoundTrips (str : Text) : Prop := ∃ octets, encode str = .ok octets ∧ decode octets = .ok str

/-- An encoding is decoded into its string, and anything else raises `Protocol_Error`. -/
def Accepts (octets : Octets) : Prop :=
  (∀ str, Encodes str octets → decode octets = .ok str) ∧
    ((∀ str, ¬Encodes str octets) → ∃ exn, decode octets = .error exn ∧ exn.IsProtocolError)

/-- The encoding of a nonempty string fits, and no end of string is found in it. -/
def Fitting (str : Text) : Prop :=
  str ≠ [] ∧ (coded str).length ≤ str.length + 3 ∧ (coded str).length * 3 ≤ naturalLast ∧
    eosFound 0 (coded str) = false

/-- The octets are not empty and not too many, and the end of string is found exactly where codes have
it. -/
def Distinguished (octets : Octets) : Prop :=
  octets ≠ [] ∧ octets.length * 3 ≤ naturalLast ∧
    ∀ symbols, Codes symbols octets → (eosFound 0 octets = true ↔ none ∈ symbols)

theorem encodes_iff {octets : Octets} :
    (∃ str, Encodes str octets) ↔ ∃ symbols, Codes symbols octets ∧ none ∉ symbols := by
  constructor
  · rintro ⟨str, encodes⟩
    refine ⟨str.map some, encodes, ?_⟩
    simp
  · rintro ⟨symbols, codes, characters⟩
    refine ⟨symbols.map character, ?_⟩
    rw [Encodes, List.map_map]
    have same : symbols.map (some ∘ character) = symbols := by
      conv_rhs => rw [← List.map_id symbols]
      refine List.map_congr_left fun symbol among => ?_
      cases symbol with
      | none => exact absurd among characters
      | some c => rfl
    rwa [same]

theorem character_some (str : Text) : (str.map some).map character = str := by
  rw [List.map_map]
  exact List.map_id str

theorem roundTrips_iff (str : Text) : RoundTrips str ↔ Fitting str := by
  by_cases nonempty : str = []
  · subst nonempty
    refine iff_of_false ?_ fun fitting => fitting.1 rfl
    rintro ⟨octets, encoded, decoded⟩
    exact decode_ne_nil decoded rfl
  by_cases fits : (coded str).length ≤ str.length + 3
  · by_cases small : (coded str).length * 3 ≤ naturalLast
    · have decoded := decode_coded nonempty small
      constructor
      · rintro ⟨octets, encoded, decoded'⟩
        rw [encode_eq, if_pos fits] at encoded
        cases encoded
        refine ⟨nonempty, fits, small, Bool.eq_false_iff.mpr fun found => ?_⟩
        rw [decoded, if_pos found] at decoded'
        cases decoded'
      · rintro ⟨_, _, _, not_found⟩
        refine ⟨coded str, by rw [encode_eq, if_pos fits], ?_⟩
        rw [decoded, not_found]
        rfl
    · refine iff_of_false ?_ fun fitting => small fitting.2.2.1
      rintro ⟨octets, encoded, decoded⟩
      rw [encode_eq, if_pos fits] at encoded
      cases encoded
      rw [decode_constraintError (.inr (not_le.mp small))] at decoded
      cases decoded
  · refine iff_of_false ?_ fun fitting => fits fitting.2.1
    rintro ⟨octets, encoded, decoded⟩
    rw [encode_eq, if_neg fits] at encoded
    cases encoded

theorem accepts_iff (octets : Octets) : Accepts octets ↔ Distinguished octets := by
  by_cases refused : octets = [] ∨ naturalLast < octets.length * 3
  · refine iff_of_false ?_ ?_
    · rintro ⟨accepted, rejected⟩
      have raised := decode_constraintError refused
      by_cases encoding : ∃ str, Encodes str octets
      · obtain ⟨str, encodes⟩ := encoding
        rw [raised] at accepted
        cases accepted str encodes
      · obtain ⟨exn, raised', protocol⟩ := rejected (not_exists.mp encoding)
        rw [raised] at raised'
        cases raised'
        exact protocol
    · rintro ⟨nonempty, small, _⟩
      exact refused.elim nonempty (not_lt.mpr small)
  obtain ⟨nonempty, small⟩ := not_or.mp refused
  have small := not_lt.mp small
  rcases decode_cases nonempty small with
    ⟨symbols, codes, not_found, decoded⟩ | ⟨cause, exn, raised, protocol⟩
  · have only : Accepts octets ↔ none ∉ symbols := by
      constructor
      · rintro ⟨_, rejected⟩ ended
        have none_encoded : ∀ str, ¬Encodes str octets := by
          intro str encodes
          obtain rfl := codes.unique encodes
          simp at ended
        obtain ⟨exn, raised, _⟩ := rejected none_encoded
        rw [decoded] at raised
        cases raised
      · intro characters
        refine ⟨fun str encodes => ?_, fun none_encoded => ?_⟩
        · obtain rfl := codes.unique encodes
          rw [decoded, character_some]
        · obtain ⟨str, encodes⟩ := encodes_iff.mpr ⟨symbols, codes, characters⟩
          exact absurd encodes (none_encoded str)
    rw [only]
    constructor
    · intro characters
      refine ⟨nonempty, small, fun other codes' => ?_⟩
      obtain rfl := codes.unique codes'
      rw [not_found]
      exact iff_of_false Bool.false_ne_true characters
    · rintro ⟨_, _, distinguished⟩ ended
      have found := (distinguished symbols codes).mpr ended
      rw [not_found] at found
      cases found
  · have only : Accepts octets ↔ ∀ str, ¬Encodes str octets := by
      constructor
      · rintro ⟨accepted, _⟩ str encodes
        have decoded := accepted str encodes
        rw [raised] at decoded
        cases decoded
      · intro none_encoded
        exact ⟨fun str encodes => absurd encodes (none_encoded str), fun _ => ⟨exn, raised, protocol⟩⟩
    rw [only]
    constructor
    · intro none_encoded
      refine ⟨nonempty, small, fun symbols codes => ?_⟩
      refine iff_of_true (cause.resolve_right fun uncoded => uncoded symbols codes) ?_
      by_contra characters
      obtain ⟨str, encodes⟩ := encodes_iff.mpr ⟨symbols, codes, characters⟩
      exact none_encoded str encodes
    · rintro ⟨_, _, distinguished⟩ str encodes
      have found := cause.resolve_right fun uncoded => uncoded _ encodes
      have ended := (distinguished _ encodes).mp found
      simp at ended

/-- The coder inverts itself exactly on the strings whose encoding fits, and decodes exactly the
encodings as long as the end of string is found where it is. -/
theorem coder_conforms_iff (str : Text) (octets : Octets) :
    (RoundTrips str ↔ Fitting str) ∧ (Accepts octets ↔ Distinguished octets) :=
  ⟨roundTrips_iff str, accepts_iff octets⟩

/-- Two line feeds do not fit, and an end of string in the last octet is taken for a null character. -/
theorem coder_fails :
    ¬RoundTrips (text "\n\n") ∧ decode [0xff, 0xff, 0xff, 0xff] = .ok [0] ∧
      ¬Accepts [0xff, 0xff, 0xff, 0xff] := by
  refine ⟨fun trips => ?_, by decide +kernel, fun accepts => ?_⟩
  · have fits := ((roundTrips_iff _).mp trips).2.1
    revert fits
    decide +kernel
  · obtain ⟨_, _, distinguished⟩ := (accepts_iff _).mp accepts
    have codes : Codes [none] [0xff, 0xff, 0xff, 0xff] := ⟨2, by decide, by decide +kernel⟩
    have found := (distinguished [none] codes).mpr List.mem_cons_self
    revert found
    decide +kernel

end Huffman
end Http2
end AdaWebServer

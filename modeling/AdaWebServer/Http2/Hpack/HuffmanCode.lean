import AdaWebServer.Http2.Hpack.Huffman

/-!
# Correctness of the Huffman coder

`Encode` produces the concatenated codes packed into octets, and raises `Constraint_Error` exactly
when this takes more than three octets more than the string.  `Decode` inverts it unless its test
for an end of string fires inside the coded string, and never fails otherwise than by
`Protocol_Error` on a nonempty string.
-/

namespace AdaWebServer
namespace Http2
namespace Huffman

open PrefixCode BitString

/-! ## The decoding tree -/

/-- The character that a place of the table is for. -/
def characterAt (k : Nat) : UInt8 := if k = 256 then 0 else UInt8.ofNat k

/-- The tree and the table, evaluated once. -/
private theorem tree_checked :
    (createTree.isSome && root.Complete && root.LeavesBelow 5 && root.Inner &&
      table.zipIdx.all (fun word => decide (root.follow word.1.path = .leaf (characterAt word.2))) &&
      table.all (fun c => decide (5 ≤ c.nBit ∧ c.nBit ≤ 30))) = true := by
  decide +kernel

theorem createTree_isSome : createTree.isSome = true := by
  have checked := tree_checked
  simp only [Bool.and_eq_true] at checked
  exact checked.1.1.1.1.1

theorem root_complete : root.Complete = true := by
  have checked := tree_checked
  simp only [Bool.and_eq_true] at checked
  exact checked.1.1.1.1.2

theorem root_leavesBelow : root.LeavesBelow 5 = true := by
  have checked := tree_checked
  simp only [Bool.and_eq_true] at checked
  exact checked.1.1.1.2

theorem root_node : ∃ zero one, root = CodeTree.node zero one := by
  have checked := tree_checked
  simp only [Bool.and_eq_true] at checked
  exact CodeTree.inner_iff.mp checked.1.1.2

theorem code_mem (c : UInt8) : (code c, c.toNat) ∈ table.zipIdx := by
  rw [List.mem_zipIdx_iff_getElem?]
  exact List.getElem?_eq_getElem _

theorem root_follow_codeBits (c : UInt8) : root.follow (codeBits c) = CodeTree.leaf c := by
  have checked := tree_checked
  simp only [Bool.and_eq_true] at checked
  have follows := of_decide_eq_true (List.all_eq_true.mp checked.1.2 _ (code_mem c))
  have small : c.toNat ≠ 256 := Nat.ne_of_lt c.toNat_lt
  simpa [characterAt, small, codeBits] using follows

theorem code_nBit (c : UInt8) : 5 ≤ (code c).nBit ∧ (code c).nBit ≤ 30 := by
  have checked := tree_checked
  simp only [Bool.and_eq_true] at checked
  exact of_decide_eq_true (List.all_eq_true.mp checked.2 _ (List.get_mem _ _))

/-- An insertion goes on in the child of the first bit, and leaves the other child. -/
theorem insertItem_cons {c : UInt8} {bit : Bool} {bits : List Bool} {tree inserted : Node}
    (insert_eq : insertItem c (bit :: bits) tree = some inserted) :
    insertItem c bits (tree.child bit) = some (inserted.child bit) ∧
      inserted.child (!bit) = tree.child (!bit) ∧ inserted.Inner = true := by
  cases tree with
  | leaf symbol =>
      rw [insertItem] at insert_eq
      cases insert_eq
  | null =>
      cases bit <;> rw [insertItem, Option.map_eq_some_iff] at insert_eq <;>
        obtain ⟨below, below_eq, rfl⟩ := insert_eq <;> exact ⟨below_eq, rfl, rfl⟩
  | node zero one =>
      cases bit <;> rw [insertItem, Option.map_eq_some_iff] at insert_eq <;>
        obtain ⟨below, below_eq, rfl⟩ := insert_eq <;> exact ⟨below_eq, rfl, rfl⟩

/-- An insertion adds no other leaf. -/
theorem insertItem_leaf {c d : UInt8} {bits path : List Bool} {tree inserted : Node}
    (insert_eq : insertItem c bits tree = some inserted)
    (reached : inserted.follow path = CodeTree.leaf d) :
    (path = bits ∧ d = c) ∨ tree.follow path = CodeTree.leaf d := by
  induction bits generalizing tree inserted path with
  | nil =>
      rw [insertItem] at insert_eq
      cases insert_eq
      cases path with
      | nil =>
          cases reached
          exact .inl ⟨rfl, rfl⟩
      | cons step path =>
          rw [CodeTree.follow_leaf_cons] at reached
          cases reached
  | cons bit bits ih =>
      obtain ⟨below_eq, other_eq, inner⟩ := insertItem_cons insert_eq
      cases path with
      | nil =>
          rw [CodeTree.follow_nil] at reached
          rw [reached] at inner
          cases inner
      | cons step path =>
          rw [CodeTree.follow_cons] at reached ⊢
          by_cases same : step = bit
          · subst same
            obtain ⟨path_eq, d_eq⟩ | before := ih below_eq reached
            · exact .inl ⟨by rw [path_eq], d_eq⟩
            · exact .inr before
          · rw [Bool.eq_not.mpr same, other_eq] at reached
            rw [Bool.eq_not.mpr same]
            exact .inr reached

/-- The leaves of a tree that some codes have been inserted into. -/
theorem foldlM_leaf {words : List (Code × Nat)} {tree inserted : Node} {d : UInt8} {path : List Bool}
    (insert_eq : words.foldlM (fun tree word => insertItem (characterAt word.2) word.1.path tree) tree =
      some inserted) (reached : inserted.follow path = CodeTree.leaf d) :
    (∃ word ∈ words, path = word.1.path ∧ d = characterAt word.2) ∨
      tree.follow path = CodeTree.leaf d := by
  induction words generalizing tree with
  | nil =>
      cases insert_eq
      exact .inr reached
  | cons word words ih =>
      rw [List.foldlM_cons, Option.bind_eq_bind, Option.bind_eq_some_iff] at insert_eq
      obtain ⟨next, next_eq, rest_eq⟩ := insert_eq
      obtain ⟨later, among, found⟩ | before := ih rest_eq
      · exact .inl ⟨later, List.mem_cons_of_mem _ among, found⟩
      · obtain ⟨path_eq, d_eq⟩ | before := insertItem_leaf next_eq before
        · exact .inl ⟨word, List.mem_cons_self, path_eq, d_eq⟩
        · exact .inr before

/-- Every leaf is at a code of the table. -/
theorem root_leaf {d : UInt8} {path : List Bool} (reached : root.follow path = CodeTree.leaf d) :
    ∃ word ∈ table.zipIdx, path = word.1.path ∧ d = characterAt word.2 := by
  obtain ⟨inserted, inserted_eq⟩ := Option.isSome_iff_exists.mp createTree_isSome
  rw [root, inserted_eq, Option.getD_some] at reached
  obtain found | before := foldlM_leaf inserted_eq reached
  · exact found
  · rw [CodeTree.follow_null] at before
    cases before

theorem codeBits_length (c : UInt8) : (codeBits c).length = (code c).nBit := ofNat_length _ _

theorem codeBits_ne_nil (c : UInt8) : codeBits c ≠ [] := by
  intro empty
  have length := codeBits_length c
  rw [empty] at length
  have := code_nBit c
  simp at length
  omega

theorem root_follow_ones {padding : Nat} (small : padding < 8) :
    ∃ zero one, root.follow (List.replicate padding true) = CodeTree.node zero one := by
  have inner : ∀ padding < 8, (root.follow (List.replicate padding true)).Inner = true := by
    decide +kernel
  exact CodeTree.inner_iff.mp (inner padding small)

/-! ## Encoding -/

/-- The canonical Huffman coding of a string. -/
def coded (str : Text) : Octets := pack (str.flatMap codeBits)

/-- The variables of the encoder hold a bit string. -/
structure Holds (state : EncodeState) (bits pending : List Bool) : Prop where
  /-- The bits are those of the octets pushed and the pending ones. -/
  bits_eq : bits = ofOctets state.r ++ pending
  /-- The pending bits and the free bits make an octet. -/
  width : pending.length + state.b = 8
  /-- There is room for a bit. -/
  room : 1 ≤ state.b
  /-- The current value starts with the pending bits. -/
  v_eq : state.v = value pending * 2 ^ state.b

theorem Holds.r_length {self : EncodeState} {bits pending : List Bool}
    (holds : Holds self bits pending) : self.r.length = bits.length / 8 := by
  have := holds.width
  have := holds.room
  rw [holds.bits_eq, List.length_append, ofOctets_length]
  omega

/-- Storing `t` into the free bits of the current value. -/
private theorem or_stored {self : EncodeState} {bits pending : List Bool}
    (holds : Holds self bits pending) {t : Nat} (small : t < 2 ^ self.b) :
    self.v ||| t = value pending * 2 ^ self.b + t := by
  rw [holds.v_eq, Nat.mul_comm, Nat.two_pow_add_eq_or_of_lt small]

private theorem pushByte_spec (last : Nat) (self : EncodeState) (pending stored : List Bool) :
    pushByte last { self with v := value (pending ++ stored) } =
      if self.r.length + 1 ≤ last then
        .ok { r := self.r ++ [octet (pending ++ stored)], v := 0, b := 8 }
      else
        .error .constraintError := rfl

private theorem holds_pushed {self : EncodeState} {bits pending stored : List Bool}
    (holds : Holds self bits pending) (width : pending.length + stored.length = 8) :
    Holds { r := self.r ++ [octet (pending ++ stored)], v := 0, b := 8 } (bits ++ stored) [] where
  bits_eq := by
    rw [ofOctets_append, ofOctets_cons, ofOctets_nil, ofOctet_octet (by simpa using width),
      holds.bits_eq]
    simp
  width := rfl
  room := Nat.le_add_left 1 7
  v_eq := rfl

private theorem low_bits_shifted (bits : Nat) {n b : Nat} (fits : n ≤ b) (narrow : b ≤ 8) :
    ((bits <<< (b - n)) % 2 ^ 32) &&& (2 ^ b - 1) = value (ofNat n bits) * 2 ^ (b - n) := by
  have divides : 2 ^ b ∣ 2 ^ 32 := pow_dvd_pow 2 (by omega)
  have factors : 2 ^ b = 2 ^ n * 2 ^ (b - n) := by rw [← pow_add]; congr 1; omega
  rw [Nat.and_two_pow_sub_one_eq_mod, Nat.mod_mod_of_dvd _ divides, Nat.shiftLeft_eq, factors,
    Nat.mul_mod_mul_right, value_ofNat]

private theorem high_bits (bits : Nat) {n b : Nat} (_wide : b < n) :
    (bits >>> (n - b)) &&& (2 ^ b - 1) = value (ofNat b (bits / 2 ^ (n - b))) := by
  rw [Nat.and_two_pow_sub_one_eq_mod, Nat.shiftRight_eq_div_pow, value_ofNat]

/-- Storing a code appends its remaining bits, as long as the result array is large enough. -/
theorem storeBits_spec (last bits bound n : Nat) {self : EncodeState} {front pending : List Bool}
    (holds : Holds self front pending) (enough : n < bound) :
    if (front.length + n) / 8 ≤ last ∨ (front.length + n) / 8 = front.length / 8 then
      ∃ stored rest, storeBits last bits bound n self = .ok stored ∧
        Holds stored (front ++ ofNat n bits) rest
    else
      storeBits last bits bound n self = .error .constraintError := by
  induction bound generalizing n self front pending with
  | zero => omega
  | succ bound ih =>
      have width := holds.width
      have room := holds.room
      have pushed_count := holds.r_length
      have front_length : front.length = 8 * self.r.length + pending.length := by
        rw [holds.bits_eq, List.length_append, ofOctets_length]
      rw [storeBits]
      by_cases fits : n ≤ self.b
      · have scaled : value (ofNat n bits) * 2 ^ (self.b - n) < 2 ^ self.b := by
          have small := value_lt (ofNat n bits)
          rw [ofNat_length] at small
          calc
            value (ofNat n bits) * 2 ^ (self.b - n) < 2 ^ n * 2 ^ (self.b - n) :=
              Nat.mul_lt_mul_of_pos_right small (by positivity)
            _ = 2 ^ self.b := by rw [← pow_add]; congr 1; omega
        have merged : self.v ||| value (ofNat n bits) * 2 ^ (self.b - n) =
            value (pending ++ ofNat n bits) * 2 ^ (self.b - n) := by
          rw [or_stored holds scaled, value_append, ofNat_length, Nat.add_mul, Nat.mul_assoc,
            ← pow_add]
          congr 3
          omega
        simp only [if_pos fits, low_bits_shifted bits fits (by omega), merged]
        by_cases full : self.b - n = 0
        · have exact_width : pending.length + (ofNat n bits).length = 8 := by
            rw [ofNat_length]
            omega
          have push := pushByte_spec last self pending (ofNat n bits)
          simp only [full, pow_zero, Nat.mul_one, if_true] at push ⊢
          have pushed : pushByte last { r := self.r, v := value (pending ++ ofNat n bits), b := 0 } =
              if self.r.length + 1 ≤ last then
                .ok { r := self.r ++ [octet (pending ++ ofNat n bits)], v := 0, b := 8 }
              else .error .constraintError := rfl
          rw [pushed]
          by_cases large : self.r.length + 1 ≤ last
          · rw [if_pos (by omega), if_pos large]
            exact ⟨_, [], rfl, holds_pushed holds exact_width⟩
          · rw [if_neg (by omega), if_neg large]
        · rw [if_neg full, if_pos (by omega)]
          refine ⟨_, pending ++ ofNat n bits, rfl, ?_, ?_, ?_, rfl⟩
          · rw [holds.bits_eq, List.append_assoc]
          · simp only [List.length_append, ofNat_length]
            omega
          · simp only
            omega
      · have wide : self.b < n := not_le.mp fits
        have exact_width : pending.length + (ofNat self.b (bits / 2 ^ (n - self.b))).length = 8 := by
          rw [ofNat_length]
          exact width
        have small : value (ofNat self.b (bits / 2 ^ (n - self.b))) < 2 ^ self.b := by
          simpa using value_lt (ofNat self.b (bits / 2 ^ (n - self.b)))
        have merged : self.v ||| value (ofNat self.b (bits / 2 ^ (n - self.b))) =
            value (pending ++ ofNat self.b (bits / 2 ^ (n - self.b))) := by
          rw [or_stored holds small, value_append, ofNat_length]
        simp only [if_neg fits, high_bits bits wide, merged]
        rw [show pushByte last { r := self.r, v := value (pending ++ _), b := self.b } = _ from
          pushByte_spec last self pending _]
        by_cases large : self.r.length + 1 ≤ last
        · simp only [if_pos large, ok_bind]
          have later := ih (n - self.b) (holds_pushed holds exact_width) (by omega)
          have split : ofNat n bits =
              ofNat self.b (bits / 2 ^ (n - self.b)) ++ ofNat (n - self.b) bits := by
            rw [← ofNat_add]
            congr 1
            omega
          have counts : (front ++ ofNat self.b (bits / 2 ^ (n - self.b))).length + (n - self.b) =
              front.length + n := by
            simp only [List.length_append, ofNat_length]
            omega
          rw [counts, List.append_assoc, ← split] at later
          have reached : (front ++ ofNat self.b (bits / 2 ^ (n - self.b))).length / 8 =
              self.r.length + 1 := by
            simp only [List.length_append, ofNat_length]
            omega
          rw [reached] at later
          by_cases within : (front.length + n) / 8 ≤ last
          · rw [if_pos (Or.inl within)] at later ⊢
            exact later
          · rw [if_neg (by omega)] at later ⊢
            exact later
        · rw [if_neg (by omega), if_neg large]
          rfl

/-- Encoding characters appends their codes, as long as the result array is large enough. -/
theorem encodeCharacters_spec (last : Nat) {self : EncodeState} {front pending : List Bool}
    (holds : Holds self front pending) (within : self.r.length ≤ last) (str : Text) :
    if (front.length + (str.flatMap codeBits).length) / 8 ≤ last then
      ∃ stored rest, encodeCharacters last self str = .ok stored ∧
        Holds stored (front ++ str.flatMap codeBits) rest
    else
      encodeCharacters last self str = .error .constraintError := by
  induction str generalizing self front pending with
  | nil =>
      have count := holds.r_length
      rw [if_pos (by simp; omega)]
      exact ⟨self, pending, rfl, by simpa using holds⟩
  | cons c str ih =>
      have count := holds.r_length
      have stored := storeBits_spec last (code c).bits 31 (code c).nBit holds (by have := code_nBit c; omega)
      have total : front.length + ((c :: str).flatMap codeBits).length =
          front.length + (code c).nBit + (str.flatMap codeBits).length := by
        rw [List.flatMap_cons, List.length_append, codeBits_length]
        omega
      rw [total, encodeCharacters]
      by_cases fits : (front.length + (code c).nBit) / 8 ≤ last
      · rw [if_pos (Or.inl fits)] at stored
        obtain ⟨next, rest, done, holds'⟩ := stored
        have front_next : (front ++ ofNat (code c).nBit (code c).bits).length =
            front.length + (code c).nBit := by simp
        have next_within : next.r.length ≤ last := by
          rw [holds'.r_length, front_next]
          exact fits
        have later := ih holds' next_within
        rw [front_next] at later
        simp only [done, ok_bind]
        split
        · next large =>
            rw [if_pos large] at later
            obtain ⟨final, tail, equation, holds''⟩ := later
            exact ⟨final, tail, equation, by
              simpa [List.flatMap_cons, codeBits, Code.path] using holds''⟩
        · next small =>
            rw [if_neg small] at later
            exact later
      · rw [if_neg (by omega)] at stored
        rw [if_neg (by omega), stored]
        rfl

/-- `Encode` packs the codes, or raises `Constraint_Error` when this takes too many octets. -/
theorem encode_eq (str : Text) :
    encode str =
      if (coded str).length ≤ str.length + 3 then .ok (coded str) else .error .constraintError := by
  have holds : Holds { r := [], v := 0, b := 8 } [] [] := ⟨rfl, rfl, by decide, rfl⟩
  have spec := encodeCharacters_spec (str.length + 3) holds (by simp) str
  simp only [List.length_nil, Nat.zero_add, List.nil_append] at spec
  obtain ⟨padding, small, unpacked⟩ := ofOctets_pack (str.flatMap codeBits)
  have octets_length : 8 * (coded str).length = (str.flatMap codeBits).length + padding := by
    have lengths := congrArg List.length unpacked
    simpa [coded] using lengths
  rw [encode]
  split at spec
  · next fits =>
      obtain ⟨stored, rest, done, holds'⟩ := spec
      have width := holds'.width
      have room := holds'.room
      have total : (str.flatMap codeBits).length = 8 * stored.r.length + rest.length := by
        rw [holds'.bits_eq, List.length_append, ofOctets_length]
      simp only [done, ok_bind]
      by_cases whole : stored.b = 8
      · have empty : rest = [] := List.eq_nil_of_length_eq_zero (by omega)
        have packed : coded str = stored.r := by
          rw [coded, holds'.bits_eq, pack_ofOctets_append, empty]
          simp [pack]
        rw [if_neg (by simpa using whole), packed, if_pos (by omega)]
        rfl
      · have occupied : rest ≠ [] := by
          rintro rfl
          simp at width
          omega
        have packed : coded str = stored.r ++ [octet (fill rest)] := by
          rw [coded, holds'.bits_eq, pack_ofOctets_append, pack_short occupied (by omega)]
        have ones : 2 ^ stored.b - 1 < 2 ^ stored.b := by
          have : 0 < 2 ^ stored.b := by positivity
          omega
        have filled : stored.v ||| (2 ^ stored.b - 1) = value (fill rest) := by
          have free : 8 - rest.length = stored.b := by omega
          rw [or_stored holds' ones, fill, value_append, free, List.length_replicate,
            value_replicate_true]
        rw [if_pos (by simpa using whole), filled, packed]
        by_cases room_left : stored.r.length + 1 ≤ str.length + 3
        · simp [pushByte, room_left, octet]
        · simp [pushByte, room_left]
  · next tooMany =>
      rw [spec, if_neg (by omega)]
      rfl

/-! ## Decoding -/

/-- Variables of the decoder after a scan. -/
def ofProgress (progress : CodeTree.Progress UInt8) : DecodeState where
  iter := root.follow progress.pending
  padding := progress.pending.length
  pad0 := progress.pending.any (! ·)
  result := progress.symbols

/-- No character is decoded from less than five bits. -/
def Bounded (last bitCount : Nat) (progress : CodeTree.Progress UInt8) : Prop :=
  5 * progress.symbols.length + progress.pending.length + bitCount ≤ 5 * last

/-- One bit is read as by the scanner. -/
theorem decodeBit_ofProgress {last : Nat} (bitCount : Nat) {progress : CodeTree.Progress UInt8}
    (bounded : Bounded last (bitCount + 1) progress) (atNode : root.AtNode progress) (bit : Bool) :
    ∃ next, root.advance progress bit = some next ∧ root.AtNode next ∧
      Bounded last bitCount next ∧
      decodeBit last (ofProgress progress) bit = .ok (ofProgress next) := by
  obtain ⟨next, step, atNext⟩ :=
    CodeTree.advance_of_complete root_complete root_node atNode bit
  have consumed := CodeTree.advance_consumes root_leavesBelow step
  have bounded' : Bounded last bitCount next := by
    unfold Bounded at *
    omega
  refine ⟨next, step, atNext, bounded', ?_⟩
  have below : (root.follow progress.pending).child bit =
      root.follow (progress.pending ++ [bit]) := by
    rw [CodeTree.follow_append]
    simp
  unfold CodeTree.advance at step
  unfold decodeBit
  simp only [ofProgress, below]
  split at step
  · simp at step
  · next c reached =>
      obtain rfl := Option.some.inj step
      have room : progress.symbols.length + 1 ≤ last := by
        simp only [Bounded, List.length_append, List.length_singleton] at bounded'
        omega
      simp only [reached]
      exact (if_pos room).trans (by simp)
  · next zero one reached =>
      obtain rfl := Option.some.inj step
      simp [reached, List.any_append]

/-- Bits are read as by the scanner. -/
theorem decodeBits_ofProgress {last : Nat} (bits : List Bool) (bitCount : Nat)
    {progress : CodeTree.Progress UInt8} (bounded : Bounded last (bits.length + bitCount) progress)
    (atNode : root.AtNode progress) :
    ∃ final, root.scan progress bits = some final ∧ root.AtNode final ∧
      Bounded last bitCount final ∧
      decodeBits last (ofProgress progress) bits = .ok (ofProgress final) := by
  induction bits generalizing progress with
  | nil => exact ⟨progress, rfl, atNode, by simpa using bounded, rfl⟩
  | cons bit bits ih =>
      obtain ⟨next, step, atNext, bounded', decoded⟩ :=
        decodeBit_ofProgress (bits.length + bitCount)
          (by simpa [Nat.add_right_comm] using bounded) atNode bit
      obtain ⟨final, run, atFinal, bounded'', rest⟩ := ih bounded' atNext
      exact ⟨final, by simp [CodeTree.scan, step, run], atFinal, bounded'', by
        simp [decodeBits, decoded, rest]⟩

/-- The test for an end of string fires before the last octet. -/
def eosFound : Nat → Octets → Bool
  | _, [] => false
  | v, e :: rest =>
      decide (shiftIn v e &&& eos = eos ∧ rest ≠ []) || eosFound (shiftIn v e) rest

/-- Octets are read as by the scanner, up to the test for an end of string. -/
theorem decodeOctets_ofProgress {last : Nat} {progress : CodeTree.Progress UInt8}
    {octets : Octets} (v : Nat) (bounded : Bounded last (8 * octets.length) progress)
    (atNode : root.AtNode progress) :
    ∃ final, root.scan progress (ofOctets octets) = some final ∧
      decodeOctets last v (ofProgress progress) octets =
        if eosFound v octets then raiseProtocolError .compressionError "found EOS"
        else .ok (ofProgress final) := by
  induction octets generalizing v progress with
  | nil => exact ⟨progress, rfl, rfl⟩
  | cons e rest ih =>
      obtain ⟨next, run, atNext, bounded', decoded⟩ :=
        decodeBits_ofProgress (ofOctet e) (8 * rest.length) (by
          rw [ofOctet_length]
          simpa [Nat.mul_add, Nat.add_comm] using bounded) atNode
      obtain ⟨final, run', rest_decoded⟩ := ih (shiftIn v e) bounded' atNext
      refine ⟨final, by simp [CodeTree.scan_append, run, run'], ?_⟩
      rw [decodeOctets]
      by_cases found : shiftIn v e &&& eos = eos ∧ rest ≠ []
      · simp [found, eosFound]
      · simp [found, eosFound, decoded, rest_decoded]

/-- `Decode` scans the octets of a nonempty string. -/
theorem decode_eq {str : Octets} (nonempty : str ≠ []) (small : str.length * 3 ≤ naturalLast) :
    ∃ final, root.scan ⟨[], []⟩ (ofOctets str) = some final ∧
      decode str =
        if eosFound 0 str then raiseProtocolError .compressionError "found EOS"
        else if 7 < final.pending.length then
          raiseProtocolError .compressionError "more than 7 bits of padding"
        else if final.pending.any (! ·) then
          raiseProtocolError .compressionError "padding with 0"
        else .ok final.symbols := by
  have start : ofProgress ⟨[], []⟩ = { iter := root, padding := 0, pad0 := false, result := [] } := by
    simp [ofProgress]
  have atNode : root.AtNode ⟨[], []⟩ := by simpa [CodeTree.AtNode] using root_node
  have bounded : Bounded (str.length * 3) (8 * str.length) ⟨[], []⟩ := by
    simp only [Bounded, List.length_nil]
    omega
  obtain ⟨final, run, decoded⟩ := decodeOctets_ofProgress 0 bounded atNode
  refine ⟨final, run, ?_⟩
  have occupied : 1 ≤ str.length := List.length_pos_of_ne_nil nonempty
  rw [start] at decoded
  rw [decode, positive_of_le occupied (by omega), ok_bind, natural_of_le small, ok_bind, decoded]
  split
  · rfl
  · simp [ofProgress]

/-- On a nonempty string `Decode` raises nothing but `Protocol_Error`. -/
theorem decode_total {str : Octets} (nonempty : str ≠ [])
    (small : str.length * 3 ≤ naturalLast) {exn : Exn} (raised : decode str = .error exn) :
    exn.IsProtocolError := by
  obtain ⟨final, _, decoded⟩ := decode_eq nonempty small
  rw [decoded] at raised
  split_ifs at raised <;> cases raised <;> trivial

/-- An empty string raises `Constraint_Error`, and so does one that is too long. -/
theorem decode_constraintError {str : Octets} (refused : str = [] ∨ naturalLast < str.length * 3) :
    decode str = .error .constraintError := by
  rcases refused with rfl | large
  · rfl
  · rw [decode]
    by_cases valid : 1 ≤ str.length ∧ str.length ≤ naturalLast
    · rw [positive, if_pos valid, ok_bind, natural_of_gt large]
      rfl
    · rw [positive, if_neg valid]
      rfl

theorem decode_ne_nil {str : Octets} {result : Text} (decoded : decode str = .ok result) :
    result ≠ [] := by
  have nonempty : str ≠ [] := by
    rintro rfl
    cases decoded
  have small : str.length * 3 ≤ naturalLast := by
    by_contra large
    rw [decode_constraintError (Or.inr (not_le.mp large))] at decoded
    cases decoded
  obtain ⟨final, run, equation⟩ := decode_eq nonempty small
  rw [equation] at decoded
  split_ifs at decoded with found long padded
  · cases decoded
  · cases decoded
  · cases decoded
  · obtain rfl := Except.ok.inj decoded
    intro silent
    have pending := CodeTree.scan_pending_of_no_symbol run silent
    have octets_length : 0 < str.length := List.length_pos_of_ne_nil nonempty
    rw [pending, List.nil_append, ofOctets_length] at long
    omega

theorem scan_coded (str : Text) : ∃ padding < 8,
    root.scan ⟨[], []⟩ (ofOctets (coded str)) = some ⟨str, List.replicate padding true⟩ := by
  obtain ⟨padding, small, unpacked⟩ := ofOctets_pack (str.flatMap codeBits)
  refine ⟨padding, small, ?_⟩
  rw [coded, unpacked, CodeTree.scan_append,
    CodeTree.scan_codewords root_follow_codeBits codeBits_ne_nil, List.nil_append]
  apply CodeTree.scan_inner
  intro front _ fronted
  have ones := List.prefix_replicate_iff.mp fronted
  rw [ones.2]
  exact root_follow_ones (by omega)

/-- `Decode` inverts the coding, unless the test for an end of string fires inside. -/
theorem decode_coded {str : Text} (nonempty : str ≠ [])
    (small : (coded str).length * 3 ≤ naturalLast) :
    decode (coded str) =
      if eosFound 0 (coded str) then raiseProtocolError .compressionError "found EOS"
      else .ok str := by
  obtain ⟨padding, padding_lt, scanned⟩ := scan_coded str
  have occupied : coded str ≠ [] := by
    intro empty
    rw [empty] at scanned
    simp only [ofOctets_nil, CodeTree.scan, Option.some.injEq, CodeTree.Progress.mk.injEq] at scanned
    exact nonempty scanned.1.symm
  obtain ⟨final, run, decoded⟩ := decode_eq occupied small
  obtain rfl := Option.some.inj (run.symm.trans scanned)
  have ones : (List.replicate padding true).any (! ·) = false := by
    simp [List.any_replicate]
  rw [decoded, if_neg (show ¬ 7 < (List.replicate padding true).length by simp; omega), ones]
  simp

end Huffman
end Http2
end AdaWebServer

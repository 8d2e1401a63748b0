import AdaWebServer.Translator.Base64Versions

/-!
# Round trip of Base64

Three octets are four groups of six bits, which the decoder puts together again.  The last one or two
octets are followed by padding or, in the mode `URL`, by nothing.
-/

namespace AdaWebServer
namespace Translator

open Http2 (Exn Octet Octets Text text)

/-! ## Six bits -/

/-- Each character stands for its six bits, in both modes. -/
private theorem chars_table : ∀ mode : Base64Mode, ∀ bits : Fin 64,
    mode.toChar (UInt8.ofNat bits) ≠ 61 ∧ isForeign (mode.toChar (UInt8.ofNat bits)) = false ∧
      base64Value (mode.toChar (UInt8.ofNat bits)) = some (UInt32.ofNat bits) := by
  rintro (_ | _) <;> decide +kernel

theorem toChar_spec (mode : Base64Mode) {bits : UInt8} (small : bits.toNat < 64) :
    mode.toChar bits ≠ 61 ∧ isForeign (mode.toChar bits) = false ∧
      base64Value (mode.toChar bits) = some bits.toUInt32 := by
  have table := chars_table mode ⟨bits.toNat, small⟩
  simp only [UInt8.ofNat_toNat] at table
  refine ⟨table.1, table.2.1, table.2.2.trans (congrArg some ?_)⟩
  apply UInt32.toNat_inj.mp
  rw [UInt32.toNat_ofNat', UInt8.toNat_toUInt32]
  exact Nat.mod_eq_of_lt (by omega)

/-- The shifts and masks of the encoder, in numbers. -/
private theorem sextets_table (octet : Octet) :
    ((octet >>> (2 : UInt8)) &&& 0x3F).toNat = octet.toNat / 4 ∧
      ((octet <<< (4 : UInt8)) &&& 0x30).toNat = 2 ^ 4 * (octet.toNat % 4) ∧
      ((octet <<< (2 : UInt8)) &&& 0x3C).toNat = 2 ^ 2 * (octet.toNat % 16) ∧
      ((octet >>> (4 : UInt8)) &&& 0xF).toNat = octet.toNat / 16 ∧
      ((octet >>> (6 : UInt8)) &&& 0x3).toNat = octet.toNat / 64 ∧
      (octet &&& 0x3F).toNat = octet.toNat % 64 :=
  Http2.forall_octet (fun octet => ((octet >>> (2 : UInt8)) &&& 0x3F).toNat = octet.toNat / 4 ∧
    ((octet <<< (4 : UInt8)) &&& 0x30).toNat = 2 ^ 4 * (octet.toNat % 4) ∧
    ((octet <<< (2 : UInt8)) &&& 0x3C).toNat = 2 ^ 2 * (octet.toNat % 16) ∧
    ((octet >>> (4 : UInt8)) &&& 0xF).toNat = octet.toNat / 16 ∧
    ((octet >>> (6 : UInt8)) &&& 0x3).toNat = octet.toNat / 64 ∧
    (octet &&& 0x3F).toNat = octet.toNat % 64) (by decide +kernel) octet

section Sextets

variable (a b c : UInt8)

theorem toNat_high : ((a >>> (2 : UInt8)) &&& 0x3F).toNat = a.toNat / 4 := (sextets_table a).1

theorem toNat_low_two : ((a <<< (4 : UInt8)) &&& 0x30).toNat = 2 ^ 4 * (a.toNat % 4) :=
  (sextets_table a).2.1

theorem toNat_low_four : ((b <<< (2 : UInt8)) &&& 0x3C).toNat = 2 ^ 2 * (b.toNat % 16) :=
  (sextets_table b).2.2.1

theorem toNat_high_four : ((b >>> (4 : UInt8)) &&& 0xF).toNat = b.toNat / 16 :=
  (sextets_table b).2.2.2.1

theorem toNat_high_two : ((c >>> (6 : UInt8)) &&& 0x3).toNat = c.toNat / 64 :=
  (sextets_table c).2.2.2.2.1

theorem toNat_low_six : (c &&& 0x3F).toNat = c.toNat % 64 := (sextets_table c).2.2.2.2.2

theorem toNat_second :
    (((a <<< (4 : UInt8)) &&& 0x30) ||| ((b >>> (4 : UInt8)) &&& 0xF)).toNat =
      2 ^ 4 * (a.toNat % 4) + b.toNat / 16 := by
  have b_lt := b.toNat_lt
  rw [UInt8.toNat_or, toNat_low_two, toNat_high_four, Nat.two_pow_add_eq_or_of_lt (by omega)]

theorem toNat_third :
    (((b <<< (2 : UInt8)) &&& 0x3C) ||| ((c >>> (6 : UInt8)) &&& 0x3)).toNat =
      2 ^ 2 * (b.toNat % 16) + c.toNat / 64 := by
  have c_lt := c.toNat_lt
  rw [UInt8.toNat_or, toNat_low_four, toNat_high_two, Nat.two_pow_add_eq_or_of_lt (by omega)]

end Sextets

/-! ## Groups of four characters -/

namespace DecodingState

/-- The bits of a character are put into the group. -/
def put (state : DecodingState) (bits : UInt8) : UInt32 :=
  state.group ||| (bits.toUInt32 <<< state.j.toNat.toUInt32)

/-- A character of the alphabet that does not complete the group. -/
theorem add_toChar (mode : Base64Mode) {bits : UInt8} (small : bits.toNat < 64) (pad : Nat)
    (group : UInt32) {j : Int} (room : 6 ≤ j) :
    (DecodingState.mk pad group j).add (mode.toChar bits) =
      ([], ⟨pad, (DecodingState.mk pad group j).put bits, j - 6⟩) := by
  obtain ⟨no_pad, own, value⟩ := toChar_spec mode small
  rw [add, own, if_neg Bool.false_ne_true, if_neg no_pad, value]
  dsimp only
  rw [if_neg (by omega)]
  rfl

/-- The character of the alphabet that completes the group. -/
theorem add_toChar_last (mode : Base64Mode) {bits : UInt8} (small : bits.toNat < 64) (pad : Nat)
    (group : UInt32) :
    (DecodingState.mk pad group 0).add (mode.toChar bits) =
      ([(DecodingState.mk pad ((DecodingState.mk pad group 0).put bits) (-6)).octet 16,
          (DecodingState.mk pad ((DecodingState.mk pad group 0).put bits) (-6)).octet 8,
          (DecodingState.mk pad ((DecodingState.mk pad group 0).put bits) (-6)).octet 0],
        ⟨pad, 0, 18⟩) := by
  obtain ⟨no_pad, own, value⟩ := toChar_spec mode small
  rw [add, own, if_neg Bool.false_ne_true, if_neg no_pad, value]
  rfl

end DecodingState

/-- The group of four times six bits. -/
def groupOf (v₁ v₂ v₃ v₄ : UInt8) : UInt32 :=
  ((((0 : UInt32) ||| v₁.toUInt32 <<< (18 : UInt32)) ||| v₂.toUInt32 <<< (12 : UInt32)) |||
    v₃.toUInt32 <<< (6 : UInt32)) ||| v₄.toUInt32 <<< (0 : UInt32)

theorem toNat_shifted {v : UInt8} {shift : UInt32} (small : v.toNat < 64)
    (within : shift.toNat ≤ 18) :
    (v.toUInt32 <<< shift).toNat = 2 ^ shift.toNat * v.toNat := by
  have power : 2 ^ shift.toNat ≤ 2 ^ 18 := Nat.pow_le_pow_right (by decide) within
  have product : 2 ^ shift.toNat * v.toNat ≤ 2 ^ 18 * 63 :=
    Nat.mul_le_mul power (by omega)
  rw [UInt32.toNat_shiftLeft, UInt8.toNat_toUInt32, Nat.mod_eq_of_lt (by omega : shift.toNat < 32),
    Nat.shiftLeft_eq, Nat.mul_comm, Nat.mod_eq_of_lt (by omega)]

theorem toNat_groupOf {v₁ v₂ v₃ v₄ : UInt8} (h₁ : v₁.toNat < 64) (h₂ : v₂.toNat < 64)
    (h₃ : v₃.toNat < 64) (h₄ : v₄.toNat < 64) :
    (groupOf v₁ v₂ v₃ v₄).toNat =
      2 ^ 6 * (2 ^ 6 * (2 ^ 6 * v₁.toNat + v₂.toNat) + v₃.toNat) + v₄.toNat := by
  have first : (v₁.toUInt32 <<< (18 : UInt32)).toNat = 2 ^ 18 * v₁.toNat :=
    toNat_shifted h₁ (by decide)
  have second : (v₂.toUInt32 <<< (12 : UInt32)).toNat = 2 ^ 12 * v₂.toNat :=
    toNat_shifted h₂ (by decide)
  have third : (v₃.toUInt32 <<< (6 : UInt32)).toNat = 2 ^ 6 * v₃.toNat :=
    toNat_shifted h₃ (by decide)
  have fourth : (v₄.toUInt32 <<< (0 : UInt32)).toNat = v₄.toNat := by
    rw [toNat_shifted h₄ (by decide)]
    simp
  rw [groupOf, UInt32.toNat_or, UInt32.toNat_or, UInt32.toNat_or, UInt32.toNat_or, first, second,
    third, fourth]
  have two : (UInt32.toNat 0 ||| 2 ^ 18 * v₁.toNat) ||| 2 ^ 12 * v₂.toNat =
      2 ^ 12 * (2 ^ 6 * v₁.toNat + v₂.toNat) := by
    rw [UInt32.toNat_zero, Nat.zero_or, ← Nat.two_pow_add_eq_or_of_lt (by omega)]
    omega
  have three : 2 ^ 12 * (2 ^ 6 * v₁.toNat + v₂.toNat) ||| 2 ^ 6 * v₃.toNat =
      2 ^ 6 * (2 ^ 6 * (2 ^ 6 * v₁.toNat + v₂.toNat) + v₃.toNat) := by
    rw [← Nat.two_pow_add_eq_or_of_lt (by omega)]
    omega
  rw [two, three, ← Nat.two_pow_add_eq_or_of_lt (by omega)]

/-- The octets of a group that three octets have made. -/
theorem octets_group {pad : Nat} {group : UInt32} {j : Int} {a b c : UInt8}
    (value : group.toNat = 2 ^ 16 * a.toNat + 2 ^ 8 * b.toNat + c.toNat) :
    (DecodingState.mk pad group j).octet 16 = a ∧ (DecodingState.mk pad group j).octet 8 = b ∧
      (DecodingState.mk pad group j).octet 0 = c := by
  have a_lt := a.toNat_lt
  have b_lt := b.toNat_lt
  have c_lt := c.toNat_lt
  refine ⟨?_, ?_, ?_⟩
  all_goals
    apply UInt8.toNat_inj.mp
    rw [DecodingState.octet, UInt32.toNat_toUInt8, UInt32.toNat_shiftRight, value,
      Nat.shiftRight_eq_div_pow]
    simp only [UInt32.reduceToNat, Nat.reduceMod, Nat.reducePow]
    omega

/-- Bits of the first characters of a group. -/
theorem add_group (mode : Base64Mode) {v₁ v₂ v₃ : UInt8} (h₁ : v₁.toNat < 64)
    (h₂ : v₂.toNat < 64) (h₃ : v₃.toNat < 64) :
    ({} : DecodingState).add (mode.toChar v₁) =
        ([], ⟨0, (0 : UInt32) ||| v₁.toUInt32 <<< (18 : UInt32), 12⟩) ∧
      (DecodingState.mk 0 ((0 : UInt32) ||| v₁.toUInt32 <<< (18 : UInt32)) 12).add
          (mode.toChar v₂) =
        ([], ⟨0, ((0 : UInt32) ||| v₁.toUInt32 <<< (18 : UInt32)) |||
          v₂.toUInt32 <<< (12 : UInt32), 6⟩) ∧
      (DecodingState.mk 0 (((0 : UInt32) ||| v₁.toUInt32 <<< (18 : UInt32)) |||
          v₂.toUInt32 <<< (12 : UInt32)) 6).add (mode.toChar v₃) =
        ([], ⟨0, (((0 : UInt32) ||| v₁.toUInt32 <<< (18 : UInt32)) |||
          v₂.toUInt32 <<< (12 : UInt32)) ||| v₃.toUInt32 <<< (6 : UInt32), 0⟩) :=
  ⟨DecodingState.add_toChar mode h₁ 0 0 (by decide),
    DecodingState.add_toChar mode h₂ 0 _ (by decide),
    DecodingState.add_toChar mode h₃ 0 _ (by decide)⟩

/-- Four characters of the alphabet are three octets. -/
theorem addAll_four (mode : Base64Mode) {v₁ v₂ v₃ v₄ a b c : UInt8} (h₁ : v₁.toNat < 64)
    (h₂ : v₂.toNat < 64) (h₃ : v₃.toNat < 64) (h₄ : v₄.toNat < 64)
    (value : 2 ^ 6 * (2 ^ 6 * (2 ^ 6 * v₁.toNat + v₂.toNat) + v₃.toNat) + v₄.toNat =
      2 ^ 16 * a.toNat + 2 ^ 8 * b.toNat + c.toNat) (rest : Text) :
    ({} : DecodingState).addAll
        (mode.toChar v₁ :: mode.toChar v₂ :: mode.toChar v₃ :: mode.toChar v₄ :: rest) =
      (a :: b :: c :: (({} : DecodingState).addAll rest).1,
        (({} : DecodingState).addAll rest).2) := by
  have group : (groupOf v₁ v₂ v₃ v₄).toNat = 2 ^ 16 * a.toNat + 2 ^ 8 * b.toNat + c.toNat :=
    (toNat_groupOf h₁ h₂ h₃ h₄).trans value
  obtain ⟨first, second, third⟩ := @octets_group 0 _ (-6) a b c group
  obtain ⟨step₁, step₂, step₃⟩ := add_group mode h₁ h₂ h₃
  have step₄ : (DecodingState.mk 0 ((((0 : UInt32) ||| v₁.toUInt32 <<< (18 : UInt32)) |||
      v₂.toUInt32 <<< (12 : UInt32)) ||| v₃.toUInt32 <<< (6 : UInt32)) 0).add (mode.toChar v₄) =
        ([a, b, c], {}) := by
    refine (DecodingState.add_toChar_last mode h₄ 0 _).trans ?_
    rw [← first, ← second, ← third]
    rfl
  simp only [DecodingState.addAll, step₁, step₂, step₃, step₄]
  rfl

/-! ## The last group -/

/-- Bits that are missing are zero. -/
theorem groupOf_zero (v₁ v₂ v₃ : UInt8) :
    groupOf v₁ v₂ 0 0 = ((0 : UInt32) ||| v₁.toUInt32 <<< (18 : UInt32)) |||
        v₂.toUInt32 <<< (12 : UInt32) ∧
      groupOf v₁ v₂ v₃ 0 = (((0 : UInt32) ||| v₁.toUInt32 <<< (18 : UInt32)) |||
        v₂.toUInt32 <<< (12 : UInt32)) ||| v₃.toUInt32 <<< (6 : UInt32) := by
  simp [groupOf]

/-- The decoder has restored the data, without padding or behind whole groups. -/
def Restored (result : Octets × DecodingState) (data : Octets) : Prop :=
  result.2.pad = 0 ∧ result.1 ++ result.2.flush = data ∨
    result.2.flush = [] ∧ result.2.pad ≤ result.1.length ∧
      result.1.take (result.1.length - result.2.pad) = data

theorem Restored.cons {octets data : Octets} {state : DecodingState}
    (restored : Restored (octets, state) data) (a : Octet) :
    Restored (a :: octets, state) (a :: data) := by
  obtain ⟨unpadded, same⟩ | ⟨nothing_left, within, same⟩ := restored
  · exact .inl ⟨unpadded, congrArg (a :: ·) same⟩
  · refine .inr ⟨nothing_left, Nat.le_succ_of_le within, ?_⟩
    rw [List.length_cons, Nat.succ_sub within, List.take_succ_cons]
    exact congrArg (a :: ·) same

/-- Two characters, padded in the mode `MIME`, are one octet. -/
theorem restored_one (mode : Base64Mode) {v₁ v₂ a : UInt8} (h₁ : v₁.toNat < 64)
    (h₂ : v₂.toNat < 64) (value : 2 ^ 6 * v₁.toNat + v₂.toNat = 2 ^ 4 * a.toNat) :
    Restored (({} : DecodingState).addAll ([mode.toChar v₁, mode.toChar v₂] ++
      if mode = .mime then List.replicate 2 61 else [])) [a] := by
  have group : (((0 : UInt32) ||| v₁.toUInt32 <<< (18 : UInt32)) |||
      v₂.toUInt32 <<< (12 : UInt32)).toNat =
        2 ^ 16 * a.toNat + 2 ^ 8 * (0 : UInt8).toNat + (0 : UInt8).toNat := by
    rw [← (groupOf_zero v₁ v₂ 0).1, toNat_groupOf h₁ h₂ (by decide) (by decide), value,
      UInt8.toNat_zero]
    omega
  obtain ⟨step₁, step₂, -⟩ := add_group mode h₁ h₂ h₂
  cases mode with
  | mime =>
      obtain ⟨first, -, -⟩ := @octets_group 2 _ (-6) a 0 0 group
      refine .inr ?_
      simp only [if_true, List.cons_append, List.nil_append, List.replicate, DecodingState.addAll,
        step₁, step₂]
      exact ⟨rfl, show 2 ≤ 3 by decide, by rw [← first]; rfl⟩
  | url =>
      obtain ⟨first, -, -⟩ := @octets_group 0 _ 6 a 0 0 group
      refine .inl ?_
      simp only [reduceCtorEq, if_false, List.append_nil, DecodingState.addAll, step₁, step₂]
      exact ⟨trivial, by rw [← first]; rfl⟩

/-- Three characters, padded in the mode `MIME`, are two octets. -/
theorem restored_two (mode : Base64Mode) {v₁ v₂ v₃ a b : UInt8} (h₁ : v₁.toNat < 64)
    (h₂ : v₂.toNat < 64) (h₃ : v₃.toNat < 64)
    (value : 2 ^ 6 * (2 ^ 6 * v₁.toNat + v₂.toNat) + v₃.toNat =
      2 ^ 10 * a.toNat + 2 ^ 2 * b.toNat) :
    Restored (({} : DecodingState).addAll ([mode.toChar v₁, mode.toChar v₂, mode.toChar v₃] ++
      if mode = .mime then List.replicate 1 61 else [])) [a, b] := by
  have group : ((((0 : UInt32) ||| v₁.toUInt32 <<< (18 : UInt32)) |||
      v₂.toUInt32 <<< (12 : UInt32)) ||| v₃.toUInt32 <<< (6 : UInt32)).toNat =
        2 ^ 16 * a.toNat + 2 ^ 8 * b.toNat + (0 : UInt8).toNat := by
    rw [← (groupOf_zero v₁ v₂ v₃).2, toNat_groupOf h₁ h₂ h₃ (by decide), value,
      UInt8.toNat_zero]
    omega
  obtain ⟨step₁, step₂, step₃⟩ := add_group mode h₁ h₂ h₃
  cases mode with
  | mime =>
      obtain ⟨first, second, -⟩ := @octets_group 1 _ (-6) a b 0 group
      refine .inr ?_
      simp only [if_true, List.cons_append, List.nil_append, List.replicate, DecodingState.addAll,
        step₁, step₂, step₃]
      exact ⟨rfl, show 1 ≤ 3 by decide, by rw [← first, ← second]; rfl⟩
  | url =>
      obtain ⟨first, second, -⟩ := @octets_group 0 _ 0 a b 0 group
      refine .inl ?_
      simp only [reduceCtorEq, if_false, List.append_nil, DecodingState.addAll, step₁, step₂,
        step₃]
      exact ⟨trivial, by rw [← first, ← second]; rfl⟩

/-! ## The whole text -/

/-- At the beginning of a group, what the encoder makes of the data is decoded into them. -/
theorem restored_addAllIn (mode : Base64Mode) : ∀ (data : Octets) (groups : Nat) (prevE : UInt8),
    Restored (({} : DecodingState).addAll
      ((EncodingState.mk (4 * groups) .one prevE (3 * groups)).addAllIn mode data)) data
  | [], groups, prevE => by
      have nothing : (EncodingState.mk (4 * groups) .one prevE (3 * groups)).flushIn mode = [] := by
        simp only [EncodingState.flushIn, EncodingState.restIn, List.nil_append, List.length_nil]
        split_ifs
        · rw [List.replicate_eq_nil_iff]
          omega
        · rfl
      rw [EncodingState.addAllIn, nothing]
      exact .inl ⟨rfl, rfl⟩
  | [a], groups, prevE => by
      have a_lt := a.toNat_lt
      have padding : 4 * ((3 * groups + 1 + 2) / 3) + 1 - (4 * groups + 1 + 1 + 1) = 2 := by omega
      have text_eq : (EncodingState.mk (4 * groups) .one prevE (3 * groups)).addAllIn mode [a] =
          [mode.toChar ((a >>> (2 : UInt8)) &&& 0x3F),
            mode.toChar ((a <<< (4 : UInt8)) &&& 0x30)] ++
              if mode = .mime then List.replicate 2 61 else [] := by
        simp only [EncodingState.addAllIn, EncodingState.addIn, EncodingState.flushIn,
          EncodingState.restIn, List.length_cons, List.length_nil, padding]
        rfl
      rw [text_eq]
      apply restored_one mode
      · rw [toNat_high]
        omega
      · rw [toNat_low_two]
        omega
      · rw [toNat_high, toNat_low_two]
        omega
  | [a, b], groups, prevE => by
      have a_lt := a.toNat_lt
      have b_lt := b.toNat_lt
      have padding : 4 * ((3 * groups + 1 + 1 + 2) / 3) + 1 - (4 * groups + 1 + 1 + 1 + 1) = 1 := by
        omega
      have text_eq : (EncodingState.mk (4 * groups) .one prevE (3 * groups)).addAllIn mode [a, b] =
          [mode.toChar ((a >>> (2 : UInt8)) &&& 0x3F),
            mode.toChar (((a <<< (4 : UInt8)) &&& 0x30) ||| ((b >>> (4 : UInt8)) &&& 0xF)),
            mode.toChar ((b <<< (2 : UInt8)) &&& 0x3C)] ++
              if mode = .mime then List.replicate 1 61 else [] := by
        simp only [EncodingState.addAllIn, EncodingState.addIn, EncodingState.flushIn,
          EncodingState.restIn, List.length_cons, List.length_nil, padding]
        rfl
      rw [text_eq]
      apply restored_two mode
      · rw [toNat_high]
        omega
      · rw [toNat_second]
        omega
      · rw [toNat_low_four]
        omega
      · rw [toNat_high, toNat_second, toNat_low_four]
        omega
  | a :: b :: c :: data, groups, prevE => by
      have a_lt := a.toNat_lt
      have b_lt := b.toNat_lt
      have c_lt := c.toNat_lt
      have later := restored_addAllIn mode data (groups + 1) c
      have text_eq : (EncodingState.mk (4 * groups) .one prevE (3 * groups)).addAllIn mode
            (a :: b :: c :: data) =
          mode.toChar ((a >>> (2 : UInt8)) &&& 0x3F) ::
            mode.toChar (((a <<< (4 : UInt8)) &&& 0x30) ||| ((b >>> (4 : UInt8)) &&& 0xF)) ::
            mode.toChar (((b <<< (2 : UInt8)) &&& 0x3C) ||| ((c >>> (6 : UInt8)) &&& 0x3)) ::
            mode.toChar (c &&& 0x3F) ::
            (EncodingState.mk (4 * (groups + 1)) .one c (3 * (groups + 1))).addAllIn mode data := rfl
      rw [text_eq, addAll_four mode]
      · exact ((later.cons c).cons b).cons a
      · rw [toNat_high]
        omega
      · rw [toNat_second]
        omega
      · rw [toNat_third]
        omega
      · rw [toNat_low_six]
        omega
      · rw [toNat_high, toNat_second, toNat_third, toNat_low_six]
        omega

/-- Both decoders return what has been restored. -/
theorem decode_of_restored {data : Octets} {encoded : Text}
    (restored : Restored (({} : DecodingState).addAll encoded) data) :
    base64DecodeArray encoded = .ok data ∧ base64DecodeUnbounded encoded = .ok data := by
  rw [base64DecodeArray_eq, base64Decode, base64DecodeUnbounded, foldl_decodeNext]
  simp only [List.nil_append]
  obtain ⟨unpadded, same⟩ | ⟨nothing_left, within, same⟩ := restored
  · rw [if_neg (not_not.mpr unpadded), same, unpadded, Nat.sub_zero, List.take_length]
    exact ⟨rfl, rfl⟩
  · rw [nothing_left, List.append_nil, same, if_pos within]
    refine ⟨rfl, ?_⟩
    split
    · rfl
    · next unpadded =>
        rw [not_not.mp unpadded, Nat.sub_zero, List.take_length] at same
        rw [same]

theorem restored_base64Encode (mode : Base64Mode) (data : Octets) :
    Restored (({} : DecodingState).addAll (base64EncodeArray mode data)) data :=
  restored_addAllIn mode data 0 0

/-- Base64 round trip: in both modes, each version of the decoder returns the data that its version
of the encoder has been given, and the versions of the encoder produce the same text. -/
theorem base64_round_trip (mode : Base64Mode) (data : Octets) :
    base64DecodeArray (base64EncodeArray mode data) = .ok data ∧
      base64DecodeString (base64EncodeString mode data) = .ok data ∧
      base64DecodeUnbounded (base64EncodeUnbounded mode data) = .ok data ∧
      base64EncodeString mode data = base64EncodeArray mode data ∧
      base64EncodeUnbounded mode data = base64EncodeArray mode data := by
  obtain ⟨array, unbounded⟩ := decode_of_restored (restored_base64Encode mode data)
  have same : base64EncodeString mode data = base64EncodeArray mode data := rfl
  refine ⟨array, ?_, ?_, same, base64EncodeUnbounded_eq mode data⟩
  · rw [same, base64DecodeString, array]
    rfl
  · rw [base64EncodeUnbounded_eq, unbounded]

end Translator
end AdaWebServer

import AdaWebServer.Http2.Basic

/-!
# Encoding of characters in URLs

A character that may not stand in a URL is written as a percent sign and two hexadecimal digits.  Those
of the characters below 128 are kept in a table, which is made for the default encoding set: a
character of another set may be missing in it.
-/

namespace AdaWebServer
namespace Url

open Http2 (Octet Text text)

/-- `Parameters_Encoding_Set`. -/
def inParametersEncodingSet (octet : Octet) : Bool :=
  octet ∈ text "&=+ <>?#%@" || 128 ≤ octet || octet ≤ 31

/-- `Default_Encoding_Set`. -/
def inDefaultEncodingSet (octet : Octet) : Bool :=
  inParametersEncodingSet octet || octet ∈ text ";/:$,\"\x7b\x7d|\\^[]`'()"

/-- A hexadecimal digit of `Utils.Hex`. -/
def hexDigit (digit : Nat) : Octet := if digit < 10 then .ofNat (48 + digit) else .ofNat (55 + digit)

/-- `Code`. -/
def code (octet : Octet) : Text := [hexDigit (octet.toNat / 16), hexDigit (octet.toNat % 16)]

/-- `Not_Escaped`. -/
def notEscaped : Text := text "  "

/-- `Hex_Escape`, for the characters below 128. -/
def hexEscape (octet : Octet) : Text :=
  if inDefaultEncodingSet octet then code octet else notEscaped

/-- What `Encode` writes behind the percent sign. -/
def escapeCode (octet : Octet) : Text := if octet < 128 then hexEscape octet else code octet

/-- `Encode`. -/
def encode (encodingSet : Octet → Bool) (str : Text) : Text :=
  str.flatMap fun octet => if encodingSet octet then 37 :: escapeCode octet else [octet]

/-- The value of a hexadecimal digit, if it is one. -/
def hexValue (octet : Octet) : Option Nat :=
  if 48 ≤ octet ∧ octet ≤ 57 then some (octet.toNat - 48)
  else if 65 ≤ octet ∧ octet ≤ 70 then some (octet.toNat - 55)
  else if 97 ≤ octet ∧ octet ≤ 102 then some (octet.toNat - 87)
  else none

/-- What a character stands for that is not part of an escape. -/
def plain (inParams : Bool) (octet : Octet) : Octet := if inParams ∧ octet = 43 then 32 else octet

/-- `Decode` of a string. -/
def decode (inParams : Bool) : Text → Text
  | 37 :: high :: low :: rest =>
      match hexValue high, hexValue low with
      | some first, some second => .ofNat (16 * first + second) :: decode inParams rest
      | _, _ => 37 :: decode inParams (high :: low :: rest)
  | octet :: rest => plain inParams octet :: decode inParams rest
  | [] => []

example : decode true (encode inDefaultEncodingSet (text "50% of a/b")) = text "50% of a/b" := by decide +kernel

/-- The loop of `Decode` of an unbounded string, from an index on. -/
def decodeFrom (str : Text) (i : Nat) (res : Text) : Text :=
  if i < str.length then
    if str.getD i 0 = 37 ∧ i + 2 < str.length ∧ (hexValue (str.getD (i + 1) 0)).isSome ∧
        (hexValue (str.getD (i + 2) 0)).isSome then
      decodeFrom str (i + 3) (res ++
        [.ofNat (16 * (hexValue (str.getD (i + 1) 0)).getD 0 + (hexValue (str.getD (i + 2) 0)).getD 0)])
    else if str.getD i 0 = 43 then decodeFrom str (i + 1) (res ++ [32])
    else decodeFrom str (i + 1) (res ++ [str.getD i 0])
  else res
termination_by str.length - i

/-- `Decode` of an unbounded string. -/
def decodeUnbounded (str : Text) : Text := decodeFrom str 0 []

/-! ## Decoding by index -/

theorem decode_escape (inParams : Bool) {high low : Octet} {first second : Nat}
    (high_eq : hexValue high = some first) (low_eq : hexValue low = some second) (rest : Text) :
    decode inParams (37 :: high :: low :: rest) =
      .ofNat (16 * first + second) :: decode inParams rest := by
  rw [decode, high_eq, low_eq]

/-- What does not begin an escape stands for itself, apart from the plus of parameters. -/
theorem decode_cons (inParams : Bool) (octet : Octet) (rest : Text)
    (no_escape : ¬ (octet = 37 ∧ 2 ≤ rest.length ∧ (hexValue (rest.getD 0 0)).isSome ∧
      (hexValue (rest.getD 1 0)).isSome)) :
    decode inParams (octet :: rest) = plain inParams octet :: decode inParams rest := by
  by_cases percent : octet = 37
  · subst percent
    have plain_eq : plain inParams 37 = 37 := if_neg (by simp)
    match rest with
    | [] =>
        rw [decode, plain_eq]
        nofun
    | [single] =>
        rw [decode, plain_eq]
        nofun
    | high :: low :: rest =>
        rw [decode, plain_eq]
        split
        · next high_eq low_eq =>
            refine absurd ⟨rfl, by simp, ?_, ?_⟩ no_escape
            · exact Option.isSome_iff_exists.mpr ⟨_, high_eq⟩
            · exact Option.isSome_iff_exists.mpr ⟨_, low_eq⟩
        · rfl
  · rw [decode]
    exact fun _ _ _ octet_eq _ => percent octet_eq

theorem decode_ne_nil (inParams : Bool) (octet : Octet) (rest : Text) : decode inParams (octet :: rest) ≠ [] := by
  by_cases escape : octet = 37 ∧ 2 ≤ rest.length ∧ (hexValue (rest.getD 0 0)).isSome ∧
      (hexValue (rest.getD 1 0)).isSome
  · obtain ⟨rfl, long, first, second⟩ := escape
    obtain _ | ⟨high, _ | ⟨low, rest⟩⟩ := rest
    · cases long
    · exact absurd long (by simp)
    · obtain ⟨first, first_eq⟩ := Option.isSome_iff_exists.1 first
      obtain ⟨second, second_eq⟩ := Option.isSome_iff_exists.1 second
      rw [@decode_escape inParams high low first second first_eq second_eq]
      exact List.cons_ne_nil _ _
  · rw [decode_cons inParams octet rest escape]
    exact List.cons_ne_nil _ _

theorem drop_eq_cons {str : Text} {i : Nat} (inside : i < str.length) :
    str.drop i = str.getD i 0 :: str.drop (i + 1) := by
  rw [List.drop_eq_getElem_cons inside, List.getD_eq_getElem?_getD, List.getElem?_eq_getElem inside,
    Option.getD_some]

/-- The test of the loop is that of an escape in front of what is left. -/
theorem decode_drop {str : Text} {i : Nat} (inside : i < str.length)
    (no_escape : ¬ (str.getD i 0 = 37 ∧ i + 2 < str.length ∧
      (hexValue (str.getD (i + 1) 0)).isSome ∧ (hexValue (str.getD (i + 2) 0)).isSome)) :
    decode true (str.drop i) =
      plain true (str.getD i 0) :: decode true (str.drop (i + 1)) := by
  rw [drop_eq_cons inside, decode_cons]
  simp only [List.getD_eq_getElem?_getD, List.getElem?_drop, List.length_drop] at no_escape ⊢
  rintro ⟨percent, within, high, low⟩
  exact no_escape ⟨percent, by omega, high, low⟩

theorem decodeFrom_eq (str : Text) (i : Nat) (res : Text) :
    decodeFrom str i res = res ++ decode true (str.drop i) := by
  induction i, res using decodeFrom.induct str with
  | case1 i res inside escape ih =>
      obtain ⟨percent, within, high, low⟩ := escape
      obtain ⟨first, high_eq⟩ := Option.isSome_iff_exists.mp high
      obtain ⟨second, low_eq⟩ := Option.isSome_iff_exists.mp low
      have drop_eq : str.drop i =
          37 :: str.getD (i + 1) 0 :: str.getD (i + 2) 0 :: str.drop (i + 3) := by
        rw [drop_eq_cons inside, percent, drop_eq_cons (Nat.lt_of_succ_lt within),
          drop_eq_cons within]
      rw [decodeFrom, if_pos inside, if_pos ⟨percent, within, high, low⟩, ih, drop_eq,
        decode_escape true high_eq low_eq, high_eq, low_eq, List.append_assoc]
      rfl
  | case2 i res inside no_escape plus ih =>
      have space : plain true (str.getD i 0) = 32 := if_pos ⟨rfl, plus⟩
      rw [decodeFrom, if_pos inside, if_neg no_escape, if_pos plus, ih, decode_drop inside no_escape,
        space, List.append_assoc]
      rfl
  | case3 i res inside no_escape other ih =>
      have same : plain true (str.getD i 0) = str.getD i 0 := if_neg fun plus => other plus.2
      rw [decodeFrom, if_pos inside, if_neg no_escape, if_neg other, ih, decode_drop inside no_escape,
        same, List.append_assoc]
      rfl
  | case4 i res outside =>
      rw [decodeFrom, if_neg outside, List.drop_eq_nil_of_le (Nat.le_of_not_lt outside), decode,
        List.append_nil]

/-- The versions of `Decode` agree on every text. -/
theorem decodeUnbounded_eq (str : Text) : decodeUnbounded str = decode true str :=
  decodeFrom_eq str 0 []

/-! ## Round trip -/

/-- The characters of the set are written as a percent sign and two hexadecimal digits, and the others
as they are. -/
inductive Escaped (encodingSet : Octet → Bool) : Text → Text → Prop
  | nil : Escaped encodingSet [] []
  | escape {octet high low : Octet} {str result : Text} :
      encodingSet octet = true → (hexValue high).isSome → (hexValue low).isSome →
        Escaped encodingSet str result →
        Escaped encodingSet (octet :: str) (37 :: high :: low :: result)
  | plain {octet : Octet} {str result : Text} :
      encodingSet octet = false → Escaped encodingSet str result →
        Escaped encodingSet (octet :: str) (octet :: result)

/-- The encoded text is decoded into the text, and escapes the characters of the set. -/
structure RoundTrips (encodingSet : Octet → Bool) (str : Text) : Prop where
  restored : decode true (encode encodingSet str) = str
  restoredUnbounded : decodeUnbounded (encode encodingSet str) = str
  escaped : Escaped encodingSet str (encode encodingSet str)

/-- The table has the code of a character. -/
def HasCode (octet : Octet) : Prop := octet < 128 → inDefaultEncodingSet octet = true

instance (octet : Octet) : Decidable (HasCode octet) :=
  inferInstanceAs (Decidable (_ → _))

theorem hexValue_code (octet : Octet) :
    ∃ high low, code octet = [high, low] ∧ hexValue high = some (octet.toNat / 16) ∧
      hexValue low = some (octet.toNat % 16) := by
  have digits : ∀ digit : Fin 16, hexValue (hexDigit digit) = some digit.1 := by decide
  exact ⟨_, _, rfl, digits ⟨_, by have := octet.toNat_lt; omega⟩,
    digits ⟨_, Nat.mod_lt _ (by decide)⟩⟩

theorem escapeCode_of_hasCode {octet : Octet} (has_code : HasCode octet) :
    escapeCode octet = code octet := by
  rw [escapeCode]
  split_ifs with small
  · exact if_pos (has_code small)
  · rfl

theorem escapeCode_of_missing {octet : Octet} (missing : ¬ HasCode octet) :
    escapeCode octet = notEscaped := by
  obtain ⟨small, outside⟩ := Classical.not_imp.mp missing
  rw [escapeCode, if_pos small, hexEscape, if_neg outside]

/-- What the text of a character is decoded into: the blanks of the table are no digits. -/
def decodedPiece (encodingSet : Octet → Bool) (octet : Octet) : Text :=
  if encodingSet octet = true ∧ ¬ HasCode octet then 37 :: notEscaped else [octet]

/-- Encoded characters are decoded one by one. -/
theorem decode_encode {encodingSet : Octet → Bool} (percent : encodingSet 37 = true)
    (plus : encodingSet 43 = true) (str : Text) :
    decode true (encode encodingSet str) = str.flatMap (decodedPiece encodingSet) := by
  induction str with
  | nil => rfl
  | cons octet str ih =>
      rw [encode, List.flatMap_cons, List.flatMap_cons, ← encode]
      by_cases inside : encodingSet octet = true
      · rw [if_pos inside]
        by_cases has_code : HasCode octet
        · obtain ⟨high, low, code_eq, high_eq, low_eq⟩ := hexValue_code octet
          have piece : decodedPiece encodingSet octet = [octet] :=
            if_neg fun missing => missing.2 has_code
          have value : 16 * (octet.toNat / 16) + octet.toNat % 16 = octet.toNat := Nat.div_add_mod _ _
          rw [escapeCode_of_hasCode has_code, code_eq, List.cons_append, List.cons_append,
            List.cons_append, List.nil_append, decode_escape true high_eq low_eq, ih, piece, value,
            UInt8.ofNat_toNat]
          rfl
        · have piece : decodedPiece encodingSet octet = 37 :: notEscaped :=
            if_pos ⟨inside, has_code⟩
          rw [escapeCode_of_missing has_code, piece, ← ih]
          rfl
      · have piece : decodedPiece encodingSet octet = [octet] := if_neg fun missing => inside missing.1
        have no_percent : octet ≠ 37 := by
          rintro rfl
          exact inside percent
        have no_plus : octet ≠ 43 := by
          rintro rfl
          exact inside plus
        rw [if_neg inside, piece, List.cons_append, List.nil_append,
          decode_cons true octet _ fun escape => no_percent escape.1, ih]
        exact congrArg (· :: _) (if_neg fun plus => no_plus plus.2)

/-- The table has the codes of all characters of the text that have to be encoded. -/
def HasCodes (encodingSet : Octet → Bool) (str : Text) : Prop :=
  ∀ octet ∈ str, encodingSet octet = true → HasCode octet

instance (encodingSet : Octet → Bool) (str : Text) : Decidable (HasCodes encodingSet str) :=
  inferInstanceAs (Decidable (∀ octet ∈ str, _ → _))

theorem escaped_encode {encodingSet : Octet → Bool} {str : Text}
    (has_codes : HasCodes encodingSet str) : Escaped encodingSet str (encode encodingSet str) := by
  induction str with
  | nil => exact .nil
  | cons octet str ih =>
      obtain ⟨first, later⟩ := List.forall_mem_cons.mp has_codes
      rw [encode, List.flatMap_cons, ← encode]
      cases inside : encodingSet octet with
      | true =>
          obtain ⟨high, low, code_eq, high_eq, low_eq⟩ := hexValue_code octet
          rw [if_pos rfl, escapeCode_of_hasCode (first inside), code_eq]
          exact .escape inside (Option.isSome_of_eq_some high_eq) (Option.isSome_of_eq_some low_eq)
            (ih later)
      | false => exact .plain inside (ih later)

theorem hasCodes_of_length {encodingSet : Octet → Bool} {str : Text}
    (same : (str.flatMap (decodedPiece encodingSet)).length = str.length) :
    HasCodes encodingSet str := by
  have piece_le : ∀ octet, 1 ≤ (decodedPiece encodingSet octet).length := by
    intro octet
    rw [decodedPiece]
    split_ifs <;> exact Nat.le_add_left _ _
  have length_le : ∀ str : Text, str.length ≤ (str.flatMap (decodedPiece encodingSet)).length := by
    intro str
    induction str with
    | nil => exact Nat.le_refl _
    | cons octet str ih =>
        have first := piece_le octet
        rw [List.flatMap_cons, List.length_append, List.length_cons]
        omega
  induction str with
  | nil => nofun
  | cons octet str ih =>
      have first := piece_le octet
      have later := length_le str
      rw [List.flatMap_cons, List.length_append, List.length_cons] at same
      refine List.forall_mem_cons.mpr ⟨fun inside => ?_, ih (by omega)⟩
      by_contra missing
      rw [decodedPiece, if_pos ⟨inside, missing⟩] at same
      simp only [notEscaped] at same
      change 3 + _ = _ at same
      omega

/-- An encoded text is decoded into the text if the table has the codes. -/
theorem decode_encode_of_hasCodes {encodingSet : Octet → Bool} (percent : encodingSet 37 = true)
    (plus : encodingSet 43 = true) {str : Text} (has_codes : HasCodes encodingSet str) :
    decode true (encode encodingSet str) = str := by
  have alone : ∀ octet ∈ str, decodedPiece encodingSet octet = [octet] := fun octet member =>
    if_neg fun missing => missing.2 (has_codes octet member missing.1)
  rw [decode_encode percent plus, List.flatMap_def, List.map_congr_left alone, ← List.flatMap_def,
    List.flatMap_singleton']

/-- The coding of URLs: a text makes the round trip exactly when the table has the codes of its
characters that are in the set.  The versions of `Decode` agree in any case. -/
theorem encode_roundTrips_iff {encodingSet : Octet → Bool} (percent : encodingSet 37 = true)
    (plus : encodingSet 43 = true) (str : Text) :
    (RoundTrips encodingSet str ∧ ∀ input, decodeUnbounded input = decode true input) ↔
      HasCodes encodingSet str := by
  constructor
  · rintro ⟨round_trip, -⟩
    apply hasCodes_of_length
    rw [← decode_encode percent plus, round_trip.restored]
  · intro has_codes
    have restored := decode_encode_of_hasCodes percent plus has_codes
    exact ⟨⟨restored, (decodeUnbounded_eq _).trans restored, escaped_encode has_codes⟩,
      decodeUnbounded_eq⟩

theorem roundTrips_default :
    RoundTrips inDefaultEncodingSet (text "50% + 1/2") ∧
      ∀ input, decodeUnbounded input = decode true input :=
  (encode_roundTrips_iff (by decide) (by decide) _).mpr (by decide +kernel)

/-- A character that the default set leaves alone is lost in a larger set. -/
theorem tilde_blank :
    ¬ (RoundTrips (fun octet => octet ∈ text "%+~") (text "~") ∧
      ∀ input, decodeUnbounded input = decode true input) := by
  rintro ⟨round_trip, -⟩
  exact absurd round_trip.restored (by decide +kernel)

end Url
end AdaWebServer

import AdaWebServer.Containers.Parameters
import AdaWebServer.Containers.TableIndex

/-!
# Lists of parameters as text

The items of a list are written behind a question mark and ampersands, with their names and values
encoded.  What is written is read back as the same items.
-/

namespace AdaWebServer
namespace Containers

open Http2 (Octet Text Exn naturalLast toLower)
open Url (inParametersEncodingSet encode decode hexValue)

/-- The text of an item. -/
def Element.parameter (item : Element) : Text :=
  encode inParametersEncodingSet item.name ++
    if item.value = [] then [] else 61 :: encode inParametersEncodingSet item.value

/-- The texts of some items, each behind its delimiter. -/
def parameterText (delimiter : Octet) : List Element → Text
  | [] => []
  | item :: later => delimiter :: item.parameter ++ parameterText 38 later

namespace Table

/-- `Add` of a string. -/
def addString (parameters : Text) (table : Table) : Trial Failure Table := do
  let (_, table) ← addInternal naturalLast parameters (0, table)
  return table

end Table

variable {limit : Nat} {delimiter : Octet} {items : List Element} {item : Element}

/-- The items are written one after another up to the limit. -/
theorem uriFormatLoop_eq {size : Nat} {parameters : Text}
    (fits : (parameters ++ parameterText delimiter items).length ≤ limit) :
    Table.uriFormatLoop limit delimiter size parameters items =
      parameters ++ parameterText delimiter items := by
  induction items generalizing delimiter size parameters with
  | nil => exact (List.append_nil _).symm
  | cons item later ih =>
      have text_eq : parameters ++ parameterText delimiter (item :: later) =
          parameters ++ delimiter :: item.parameter ++ parameterText 38 later := by
        rw [parameterText, List.append_assoc]
      rw [text_eq] at fits ⊢
      have short : ¬limit < (parameters ++ delimiter :: item.parameter).length := by
        rw [List.length_append] at fits
        omega
      have written : parameters ++ delimiter :: item.parameter =
          parameters ++ delimiter :: encode inParametersEncodingSet item.name ++
            (if item.value = [] then [] else 61 :: encode inParametersEncodingSet item.value) := by
        rw [Element.parameter, ← List.cons_append, ← List.append_assoc]
      rw [written] at short fits ⊢
      rw [Table.uriFormatLoop, if_neg short]
      exact ih fits

/-! ## Delimiters in encoded text -/

/-- A character that has to be encoded, other than the percent sign, and is no hexadecimal digit does not
stand in an encoded text. -/
theorem not_mem_encode {special : Octet} (inside : inParametersEncodingSet special = true)
    (other : special ≠ 37) (no_digit : hexValue special = none) (str : Text) :
    special ∉ encode inParametersEncodingSet str := by
  rw [encode, List.mem_flatMap]
  rintro ⟨octet, -, among⟩
  split_ifs at among with encoded
  · have has_code : Url.HasCode octet := fun _ => by
      rw [Url.inDefaultEncodingSet, encoded, Bool.true_or]
    obtain ⟨high, low, code_eq, high_eq, low_eq⟩ := Url.hexValue_code octet
    rw [Url.escapeCode_of_hasCode has_code, code_eq, List.mem_cons, List.mem_cons,
      List.mem_singleton] at among
    obtain rfl | rfl | rfl := among
    · exact other rfl
    · cases no_digit.symm.trans high_eq
    · cases no_digit.symm.trans low_eq
  · rw [List.mem_singleton] at among
    subst among
    exact encoded inside

theorem decode_encode (str : Text) : decode true (encode inParametersEncodingSet str) = str := by
  refine Url.decode_encode_of_hasCodes (by decide) (by decide) fun octet _ encoded _ => ?_
  rw [Url.inDefaultEncodingSet, encoded, Bool.true_or]

theorem parameter_ne_nil (named : item.name ≠ [] ∨ item.value ≠ []) : item.parameter ≠ [] := by
  rw [Element.parameter]
  split_ifs with no_value
  · intro nothing
    have decoded := decode_encode item.name
    rw [← List.append_nil (encode _ _), nothing] at decoded
    exact named.elim (fun name => name decoded.symm) fun value => value no_value
  · exact List.append_ne_nil_of_right_ne_nil _ (List.cons_ne_nil _ _)

theorem ampersand_not_mem_parameter (item : Element) : 38 ∉ item.parameter := by
  have none_encoded : ∀ str, 38 ∉ encode inParametersEncodingSet str :=
    not_mem_encode (by decide) (by decide) (by decide)
  rw [Element.parameter, List.mem_append, not_or]
  refine ⟨none_encoded _, ?_⟩
  split_ifs
  · exact List.not_mem_nil
  · rw [List.mem_cons, not_or]
    exact ⟨by decide, none_encoded _⟩

/-! ## Reading what is written -/

/-- Text without an ampersand is collected. -/
theorem parameterStrings_append {current piece : Text} (no_ampersand : 38 ∉ piece) (rest : Text) :
    parameterStrings current (piece ++ rest) = parameterStrings (current ++ piece) rest := by
  induction piece generalizing current with
  | nil => rw [List.nil_append, List.append_nil]
  | cons octet piece ih =>
      rw [List.mem_cons, not_or] at no_ampersand
      rw [List.cons_append, parameterStrings, if_neg (Ne.symm no_ampersand.1), ih no_ampersand.2,
        List.append_assoc, List.singleton_append]

/-- The items are split at the ampersands. -/
theorem parameterStrings_items (named : ∀ item ∈ items, item.name ≠ [] ∨ item.value ≠ []) :
    parameterStrings [] ((parameterText delimiter items).drop 1) = items.map Element.parameter := by
  cases items with
  | nil => rfl
  | cons first later =>
      obtain ⟨first_named, later_named⟩ := List.forall_mem_cons.1 named
      rw [parameterText, List.cons_append, List.drop_one, List.tail_cons]
      induction later generalizing first with
      | nil =>
          rw [parameterText, parameterStrings_append (ampersand_not_mem_parameter first),
            List.nil_append, parameterStrings, if_neg (parameter_ne_nil first_named)]
          rfl
      | cons second later ih =>
          obtain ⟨second_named, others_named⟩ := List.forall_mem_cons.1 later_named
          rw [parameterText, parameterStrings_append (ampersand_not_mem_parameter first),
            List.cons_append, parameterStrings, if_pos rfl,
            ih second later_named second_named others_named]
          rfl

/-- The name and the value of an item are read from its text. -/
theorem parameter_split (item : Element) :
    decode true (item.parameter.takeWhile (· ≠ 61)) = item.name ∧
      decode true ((item.parameter.dropWhile (· ≠ 61)).drop 1) = item.value := by
  have others : ∀ octet ∈ encode inParametersEncodingSet item.name, decide (octet ≠ 61) = true := by
    intro octet among
    refine decide_eq_true ?_
    rintro rfl
    exact not_mem_encode (by decide) (by decide) (by decide) item.name among
  rw [Element.parameter, List.takeWhile_append_of_pos others, List.dropWhile_append_of_pos others]
  split_ifs with no_value
  · exact ⟨(List.append_nil _).symm ▸ decode_encode item.name, no_value.symm⟩
  · rw [List.takeWhile_cons_of_neg (by decide), List.dropWhile_cons_of_neg (by decide),
      List.append_nil, List.drop_one, List.tail_cons]
    exact ⟨decode_encode item.name, decode_encode item.value⟩

/-- The table keeps the names of the items as they are. -/
def KeepsNames (mode : Mode) (items : List Element) : Prop :=
  mode.lowercased = true → ∀ item ∈ items, toLower item.name = item.name

/-- The items as entries of a table. -/
def itemEntries (mode : Mode) (items : List Element) : Entries :=
  items.map fun item => (mode.normalizeName item.name, item)

/-- The text of an item adds the item. -/
theorem addParameter_item {table : Table} {entries : Entries} {maxParameters count : Nat}
    (represents : Represents table entries) (kept : KeepsNames table.toMode [item])
    (within : count + 1 ≤ maxParameters) :
    ∃ after, Table.addParameter maxParameters (count, table) item.parameter =
        .ok (count + 1, after) ∧
      Represents after (entries ++ itemEntries table.toMode [item]) ∧
      after.toMode = table.toMode := by
  obtain ⟨name_eq, value_eq⟩ := parameter_split item
  obtain ⟨after, added_eq, added, same_mode⟩ := represents.add item.name item.value
  have stored : table.newElement item.name item.value = item := by
    rw [Mode.newElement]
    split_ifs with lowercased
    · rw [kept lowercased item (List.mem_singleton_self item)]
    · rfl
  rw [Entries.add, stored] at added
  have added_eq : table.added item.name item.value = .ok after := by
    rw [Table.added, Table.add, added_eq]
  refine ⟨after, ?_, added, same_mode⟩
  rw [Table.addParameter, if_pos within, name_eq, value_eq, added_eq]
  rfl

/-- The texts of some items add the items, in their order. -/
theorem addParameter_items {table : Table} {entries : Entries} {maxParameters count : Nat}
    (represents : Represents table entries) (kept : KeepsNames table.toMode items)
    (within : count + items.length ≤ maxParameters) :
    ∃ after, (items.map Element.parameter).foldlM (Table.addParameter maxParameters) (count, table) =
        .ok (count + items.length, after) ∧
      Represents after (entries ++ itemEntries table.toMode items) := by
  induction items generalizing table entries count with
  | nil => exact ⟨table, rfl, (List.append_nil entries).symm ▸ represents⟩
  | cons item later ih =>
      rw [List.length_cons] at within
      obtain ⟨middle, first_eq, first_added, same_mode⟩ := @addParameter_item item _ _ maxParameters
        count represents (fun lowercased other among => kept lowercased other
          (List.mem_cons.2 (.inl (List.mem_singleton.1 among)))) (by omega)
      have later_kept : KeepsNames middle.toMode later := by
        rw [same_mode]
        exact fun lowercased other among => kept lowercased other (List.mem_cons_of_mem _ among)
      obtain ⟨after, later_eq, later_added⟩ := @ih middle _ (count + 1) first_added later_kept
        (by omega)
      refine ⟨after, ?_, ?_⟩
      · rw [List.map_cons, List.foldlM_cons, first_eq, List.length_cons, Nat.add_comm later.length,
          ← Nat.add_assoc]
        exact later_eq
      · rw [same_mode, List.append_assoc] at later_added
        exact later_added

theorem length_le_parameterText (named : ∀ item ∈ items, item.name ≠ [] ∨ item.value ≠ []) :
    items.length ≤ (parameterText delimiter items).length := by
  induction items generalizing delimiter with
  | nil => exact Nat.zero_le _
  | cons item later ih =>
      have rest := @ih 38 (List.forall_mem_cons.1 named).2
      rw [parameterText, List.length_append, List.length_cons, List.length_cons]
      omega

/-- A list without items of an empty name and an empty value is read back from its text, with the same
items in the same order.  The text has to fit in a string. -/
theorem addString_uriFormat {parameters : Table} {mode : Mode}
    (named : ∀ item ∈ parameters.data, item.name ≠ [] ∨ item.value ≠ [])
    (fits : (parameterText 63 parameters.data).length ≤ naturalLast)
    (kept : KeepsNames mode parameters.data) :
    ∃ rebuilt : Table,
      Table.addString (parameters.uriFormat naturalLast) { toMode := mode } = .ok rebuilt ∧
        rebuilt.data = parameters.data ∧
        Represents rebuilt (itemEntries mode parameters.data) := by
  have empty : Represents { toMode := mode } [] := ⟨rfl, fun key => Std.TreeMap.getElem?_emptyc⟩
  have written : parameters.uriFormat naturalLast = parameterText 63 parameters.data :=
    uriFormatLoop_eq fits
  have skipped : (if (parameterText 63 parameters.data).head? = some 63 then
      (parameterText 63 parameters.data).drop 1 else parameterText 63 parameters.data) =
      (parameterText 63 parameters.data).drop 1 := by
    cases parameters.data with
    | nil => rfl
    | cons item later => exact if_pos rfl
  obtain ⟨rebuilt, added_eq, represents⟩ := @addParameter_items parameters.data _ _ naturalLast 0
    empty kept (by have := @length_le_parameterText 63 _ named; omega)
  refine ⟨rebuilt, ?_, ?_, represents⟩
  · rw [Table.addString, Table.addInternal, written, skipped, parameterStrings_items named, added_eq]
    rfl
  · rw [represents.data_eq, List.nil_append, itemEntries, List.map_map]
    exact List.map_id _

/-- A repeated name, an empty name, an empty value and the characters of the syntax. -/
theorem addString_four_items :
    ∃ rebuilt : Table,
      Table.addString
        (Table.uriFormat naturalLast { data := [⟨[97], [38]⟩, ⟨[97], []⟩, ⟨[], [61]⟩, ⟨[63], [37]⟩] }) {} =
          .ok rebuilt ∧
        rebuilt.data = [⟨[97], [38]⟩, ⟨[97], []⟩, ⟨[], [61]⟩, ⟨[63], [37]⟩] ∧
        Represents rebuilt
          (itemEntries {} [⟨[97], [38]⟩, ⟨[97], []⟩, ⟨[], [61]⟩, ⟨[63], [37]⟩]) :=
  addString_uriFormat (by decide +kernel) (by decide +kernel) (by rintro ⟨⟩)

end Containers
end AdaWebServer

import AdaWebServer.Http2.RangePieces
import AdaWebServer.Utils.Numerals

/-!
# Byte ranges

A range header is a list of specifications, with blanks around them.  `Parse_Content_Range` is compared
with the ranges that they stand for.
-/

namespace AdaWebServer
namespace Server
namespace ByteRanges

open Http2 (Octet Octets Text Exn text specsOf parseContentRange_eq lastIndex integerValue ok_bind)
open Http2.Framing (offsetValue parseContentRange)
open Utils (Blank Decimal Numeral)

/-! ## Specifications -/

/-- A byte range specification: `first-`, `first-last`, or `-suffix`. -/
inductive RangeSpec
  | start (first : Numeral)
  | bounds (first last : Numeral)
  | suffix (length : Numeral)

namespace RangeSpec

/-- The text of a specification. -/
def text : RangeSpec → Text
  | start first => first.digits ++ [45]
  | bounds first last => first.digits ++ 45 :: last.digits
  | suffix length => 45 :: length.digits

/-- A specification asks for some octets of a resource. -/
def Satisfiable (length : Nat) : RangeSpec → Prop
  | start first => first.value < length
  | bounds first last => first.value ≤ last.value ∧ first.value < length
  | suffix size => 0 < size.value

instance (length : Nat) : DecidablePred (Satisfiable length)
  | start _ => inferInstanceAs (Decidable (_ < _))
  | bounds _ _ => inferInstanceAs (Decidable (_ ∧ _))
  | suffix _ => inferInstanceAs (Decidable (_ < _))

/-- The first and the last octet that a satisfiable specification asks for. -/
def limits (length : Nat) : RangeSpec → Nat × Nat
  | start first => (first.value, length - 1)
  | bounds first last => (first.value, min last.value (length - 1))
  | suffix size => (length - min size.value length, length - 1)

/-- The range of a specification. -/
def range (spec : RangeSpec) (length : Nat) : Option (Nat × Nat) :=
  if spec.Satisfiable length then some (spec.limits length) else none

/-- What `Parse_Content_Range` makes of a specification that it can read. -/
def parsed (length : Nat) : RangeSpec → Nat × Nat
  | start first => (first.value, length - 1)
  | bounds first last => (first.value, min last.value (length - 1))
  | suffix size => (length - min size.value (length - 1), length - 1)

/-- A range is within the resource. -/
theorem range_within {spec : RangeSpec} {length first last : Nat}
    (range_eq : spec.range length = some (first, last)) (some_length : 0 < length) :
    first ≤ last ∧ last < length := by
  rw [range] at range_eq
  split at range_eq
  · next satisfiable =>
      cases spec with
      | start first =>
          cases range_eq
          rw [Satisfiable] at satisfiable
          omega
      | bounds first last =>
          cases range_eq
          rw [Satisfiable] at satisfiable
          omega
      | suffix size =>
          cases range_eq
          rw [Satisfiable] at satisfiable
          omega
  · cases range_eq

end RangeSpec

/-- A specification with blanks around it. -/
structure Item where
  before : Text
  spec : RangeSpec
  after : Text
  before_blank : Blank before
  after_blank : Blank after

namespace Item

/-- The text of an item. -/
def text (item : Item) : Text := item.before ++ item.spec.text ++ item.after

/-- `Parse_Content_Range` finds the range of the specification, or raises if it has none. -/
def Exact (length : Nat) (item : Item) : Prop :=
  match item.spec.range length with
  | some (first, last) => parseContentRange item.text length = .ok ((first : Int), (last : Int))
  | none => ∃ exn, parseContentRange item.text length = .error exn

/-- Nothing of an item hinders the conversion of its numbers: its blanks are spaces, none of them is
next to the end that has no number, and the numbers are in range. -/
def Readable (item : Item) : Prop :=
  match item.spec with
  | .start first => 9 ∉ item.before ∧ item.after = [] ∧ first.value < 2 ^ 63
  | .bounds first last =>
      9 ∉ item.before ∧ 9 ∉ item.after ∧ first.value < 2 ^ 63 ∧ last.value < 2 ^ 63
  | .suffix size => item.before = [] ∧ 9 ∉ item.after ∧ size.value < 2 ^ 63

instance : DecidablePred Readable := fun item =>
  match h : item.spec with
  | .start _ => decidable_of_iff (_ ∧ _ ∧ _) (by rw [Readable, h])
  | .bounds _ _ => decidable_of_iff (_ ∧ _ ∧ _ ∧ _) (by rw [Readable, h])
  | .suffix _ => decidable_of_iff (_ ∧ _ ∧ _) (by rw [Readable, h])

/-- The item can be read and asks for some octets, and for less than all if it asks for the last ones;
or it cannot be read and asks for nothing. -/
def Supported (length : Nat) (item : Item) : Prop :=
  if item.Readable then
    item.spec.Satisfiable length ∧ ∀ size, item.spec = .suffix size → size.value < length
  else ¬item.spec.Satisfiable length

end Item

/-- The header that asks for some ranges. -/
def header (items : List Item) : Text := text "bytes=" ++ [44].intercalate (items.map Item.text)

/-! ## Numbers -/

private theorem offsetValue_numeral (numeral : Numeral) {before after : Text}
    (before_blank : Blank before) (after_blank : Blank after) :
    offsetValue (before ++ numeral.digits ++ after) =
      if 9 ∉ before ∧ 9 ∉ after ∧ numeral.value < 2 ^ 63 then .ok (numeral.value : Int)
      else .error .constraintError := by
  rw [offsetValue, Utils.integerValue_numeral numeral before_blank after_blank]
  by_cases tab : 9 ∈ before ∨ 9 ∈ after
  · rw [if_pos tab, if_neg fun spaces => tab.elim spaces.1 spaces.2.1]
  · rw [not_or] at tab
    rw [if_neg (not_or.2 tab)]
    by_cases small : numeral.value < 2 ^ 63
    · rw [if_pos ⟨tab.1, tab.2, small⟩]
      exact if_pos (by omega)
    · rw [if_neg fun all => small all.2.2]
      exact if_neg (by omega)

private theorem offsetValue_blank {blanks : Text} (blank : Blank blanks) :
    offsetValue blanks = .error .constraintError := by
  rw [offsetValue, Utils.integerValue_blank blank]

private theorem offsetValue_leading (numeral : Numeral) {before : Text} (blank : Blank before) :
    offsetValue (before ++ numeral.digits) =
      if 9 ∉ before ∧ numeral.value < 2 ^ 63 then .ok (numeral.value : Int)
      else .error .constraintError := by
  have nothing : Blank [] := by rintro _ ⟨⟩
  have number := offsetValue_numeral numeral blank nothing
  rw [List.append_nil] at number
  simpa only [List.not_mem_nil, not_false_eq_true, true_and] using number

private theorem offsetValue_trailing (numeral : Numeral) {after : Text} (blank : Blank after) :
    offsetValue (numeral.digits ++ after) =
      if 9 ∉ after ∧ numeral.value < 2 ^ 63 then .ok (numeral.value : Int)
      else .error .constraintError := by
  have nothing : Blank [] := by rintro _ ⟨⟩
  have number := offsetValue_numeral numeral nothing blank
  rw [List.nil_append] at number
  simpa only [List.not_mem_nil, not_false_eq_true, true_and] using number

/-- A specification is cut at its minus sign. -/
private theorem parseContentRange_cut {front : Text} (unsigned : 45 ∉ front) (back : Text)
    (length : Int) :
    parseContentRange (front ++ 45 :: back) length =
      lastIndex back length >>= fun last =>
        if front = [] then .ok (length - last, length - 1)
        else offsetValue front >>= fun first => .ok (first, last) := by
  have cut : (front ++ 45 :: back).takeWhile (· ≠ 45) = front := by
    rw [List.takeWhile_append_of_pos fun octet among => decide_eq_true (ne_of_mem_of_not_mem among unsigned),
      List.takeWhile_cons_of_neg (by decide), List.append_nil]
  have other : front ≠ front ++ 45 :: back := fun same => by
    simpa using congrArg List.length same
  have rest : (front ++ 45 :: back).drop (front.length + 1) = back := by
    rw [List.drop_append, List.drop_of_length_le (Nat.le_succ _), List.nil_append,
      Nat.add_sub_cancel_left, List.drop_succ_cons, List.drop_zero]
  rw [parseContentRange_eq, cut, if_neg other, rest]

private theorem lastIndex_numeral (numeral : Numeral) {after : Text} (blank : Blank after)
    (length : Nat) (some_length : 0 < length) :
    lastIndex (numeral.digits ++ after) length =
      if 9 ∉ after ∧ numeral.value < 2 ^ 63 then .ok ((min numeral.value (length - 1) : Nat) : Int)
      else .error .constraintError := by
  have some_octet : numeral.digits ++ after ≠ [] :=
    List.append_ne_nil_of_left_ne_nil numeral.some_digit _
  rw [lastIndex, if_neg some_octet, offsetValue_trailing numeral blank]
  split
  · show Except.ok (if (length : Int) ≤ numeral.value then (length : Int) - 1 else numeral.value) = _
    congr 1
    split <;> omega
  · rfl

/-! ## What is parsed -/

private theorem blank_unsigned {blanks : Text} (blank : Blank blanks) : 45 ∉ blanks := fun among =>
  absurd (blank 45 among) (by decide)

/-- A specification that begins with a number. -/
private theorem parseContentRange_numbered (first : Numeral) {before : Text} (blank : Blank before)
    (back : Text) (length : Int) :
    parseContentRange (before ++ first.digits ++ 45 :: back) length =
      lastIndex back length >>= fun last =>
        if 9 ∉ before ∧ first.value < 2 ^ 63 then .ok ((first.value : Int), last)
        else .error .constraintError := by
  have unsigned : 45 ∉ before ++ first.digits := fun among =>
    (List.mem_append.1 among).elim (blank_unsigned blank) fun digit =>
      absurd (first.decimal 45 digit) (by decide)
  rw [parseContentRange_cut unsigned]
  refine bind_congr fun last => ?_
  rw [if_neg (List.append_ne_nil_of_right_ne_nil _ first.some_digit), offsetValue_leading first blank]
  split <;> rfl

namespace Item

private theorem text_bounds (before after : Text) (first last : Numeral) :
    before ++ (first.digits ++ 45 :: last.digits) ++ after =
      before ++ first.digits ++ 45 :: (last.digits ++ after) := by
  simp

/-- The numbers of a readable item are taken as they are, but the last index is clipped. -/
theorem parseContentRange_readable {item : Item} (readable : item.Readable) {length : Nat}
    (some_length : 0 < length) :
    parseContentRange item.text length =
      .ok (((item.spec.parsed length).1 : Int), ((item.spec.parsed length).2 : Int)) := by
  obtain ⟨before, spec, after, before_blank, after_blank⟩ := item
  cases spec with
  | start first =>
      obtain ⟨no_tab, rfl, small⟩ := readable
      show parseContentRange (before ++ (first.digits ++ [45]) ++ []) length = _
      rw [List.append_nil, ← List.append_assoc, parseContentRange_numbered first before_blank,
        lastIndex, if_pos rfl, ok_bind, if_pos ⟨no_tab, small⟩]
      show Except.ok _ = Except.ok _
      congr 2
      exact (Int.natCast_pred_of_pos some_length).symm
  | bounds first last =>
      obtain ⟨no_tab, no_later_tab, first_small, last_small⟩ := readable
      show parseContentRange (before ++ (first.digits ++ 45 :: last.digits) ++ after) length = _
      rw [text_bounds, parseContentRange_numbered first before_blank,
        lastIndex_numeral last after_blank _ some_length, if_pos ⟨no_later_tab, last_small⟩, ok_bind,
        if_pos ⟨no_tab, first_small⟩]
      rfl
  | suffix size =>
      obtain ⟨rfl, no_tab, small⟩ := readable
      show parseContentRange ([] ++ 45 :: (size.digits ++ after)) length = _
      rw [parseContentRange_cut List.not_mem_nil, lastIndex_numeral size after_blank _ some_length,
        if_pos ⟨no_tab, small⟩, ok_bind, if_pos rfl]
      show Except.ok _ = Except.ok _
      congr 2
      · exact (Int.ofNat_sub (by omega)).symm
      · exact (Int.natCast_pred_of_pos some_length).symm

theorem parseContentRange_unreadable {item : Item} (unreadable : ¬item.Readable) {length : Nat}
    (some_length : 0 < length) : ∃ exn, parseContentRange item.text length = .error exn := by
  obtain ⟨before, spec, after, before_blank, after_blank⟩ := item
  refine ⟨.constraintError, ?_⟩
  cases spec with
  | start first =>
      show parseContentRange (before ++ (first.digits ++ [45]) ++ after) length = _
      rw [← List.append_assoc, List.append_assoc, List.singleton_append,
        parseContentRange_numbered first before_blank, lastIndex]
      by_cases last : after = []
      · rw [if_pos last, ok_bind, if_neg fun both => unreadable ⟨both.1, last, both.2⟩]
      · rw [if_neg last, offsetValue_blank after_blank]
        rfl
  | bounds first last =>
      show parseContentRange (before ++ (first.digits ++ 45 :: last.digits) ++ after) length = _
      rw [text_bounds, parseContentRange_numbered first before_blank,
        lastIndex_numeral last after_blank _ some_length]
      by_cases back : 9 ∉ after ∧ last.value < 2 ^ 63
      · rw [if_pos back, ok_bind, if_neg fun both => unreadable ⟨both.1, back.1, both.2, back.2⟩]
      · rw [if_neg back]
        rfl
  | suffix size =>
      show parseContentRange (before ++ 45 :: size.digits ++ after) length = _
      rw [List.append_assoc, List.cons_append, parseContentRange_cut (blank_unsigned before_blank),
        lastIndex_numeral size after_blank _ some_length]
      by_cases back : 9 ∉ after ∧ size.value < 2 ^ 63
      · rw [if_pos back, ok_bind, if_neg fun front => unreadable ⟨front, back.1, back.2⟩,
          offsetValue_blank before_blank]
        rfl
      · rw [if_neg back]
        rfl

/-- A specification is parsed as it stands exactly when it is satisfiable and is not a suffix as long
as the resource. -/
theorem parsed_eq_range_iff (spec : RangeSpec) {length : Nat} (some_length : 0 < length) :
    spec.range length = some (spec.parsed length) ↔
      spec.Satisfiable length ∧ ∀ size, spec = .suffix size → size.value < length := by
  rw [RangeSpec.range]
  by_cases satisfiable : spec.Satisfiable length
  · rw [if_pos satisfiable, Option.some_inj]
    cases spec with
    | start first => simp [RangeSpec.limits, RangeSpec.parsed, satisfiable]
    | bounds first last => simp [RangeSpec.limits, RangeSpec.parsed, satisfiable]
    | suffix size =>
        rw [RangeSpec.Satisfiable] at satisfiable
        simp [RangeSpec.limits, RangeSpec.parsed, RangeSpec.Satisfiable, satisfiable]
        omega
  · rw [if_neg satisfiable]
    exact iff_of_false nofun fun both => satisfiable both.1

theorem exact_iff_supported (item : Item) {length : Nat} (some_length : 0 < length) :
    item.Exact length ↔ item.Supported length := by
  rw [Exact, Supported]
  by_cases readable : item.Readable
  · rw [if_pos readable, parseContentRange_readable readable some_length,
      ← parsed_eq_range_iff item.spec some_length]
    cases item.spec.range length with
    | none => exact iff_of_false (fun ⟨_, failed⟩ => nomatch failed) nofun
    | some bounds =>
        simp only [Except.ok.injEq, Int.natCast_inj, Option.some_inj, Prod.ext_iff]
        exact ⟨fun ⟨first, last⟩ => ⟨first.symm, last.symm⟩, fun ⟨first, last⟩ => ⟨first.symm, last.symm⟩⟩
  · obtain ⟨exn, failed⟩ := parseContentRange_unreadable readable some_length
    rw [if_neg readable, failed, RangeSpec.range]
    by_cases satisfiable : item.spec.Satisfiable length
    · rw [if_pos satisfiable]
      exact iff_of_false nofun fun unsatisfiable => unsatisfiable satisfiable
    · rw [if_neg satisfiable]
      exact iff_of_true ⟨exn, rfl⟩ satisfiable

end Item

/-! ## Headers -/

private theorem count_digits (numeral : Numeral) {octet : Octet} (other : octet < 48) :
    numeral.digits.count octet = 0 :=
  List.count_eq_zero_of_not_mem fun among => absurd (numeral.decimal octet among).1 (UInt8.not_le.2 other)

private theorem count_blank {blanks : Text} (blank : Blank blanks) {octet : Octet} (visible : 32 < octet) :
    blanks.count octet = 0 :=
  List.count_eq_zero_of_not_mem fun among => by
    obtain rfl | rfl := blank octet among
    · exact absurd visible (by decide)
    · exact absurd visible (by decide)

private theorem Item.count_text (item : Item) {octet : Octet} (visible : 32 < octet)
    (other : octet < 48) : item.text.count octet = if octet = 45 then 1 else 0 := by
  rw [Item.text, List.count_append, List.count_append, count_blank item.before_blank visible,
    count_blank item.after_blank visible, Nat.zero_add, Nat.add_zero]
  by_cases minus : octet = 45
  · subst minus
    cases item.spec <;> simp [RangeSpec.text, count_digits _ other]
  · have others : (45 == octet) = false := beq_false_of_ne (Ne.symm minus)
    cases item.spec <;> simp [RangeSpec.text, List.count_cons, count_digits _ other, minus, others]

private theorem count_intercalate (items : List Item) :
    ([44].intercalate (items.map Item.text)).count 45 = items.length := by
  induction items with
  | nil => rfl
  | cons item items ih =>
      have one : item.text.count 45 = 1 := item.count_text (by decide) (by decide)
      cases items with
      | nil => simpa [List.intercalate] using one
      | cons next items =>
          rw [List.map_cons, List.map_cons, List.intercalate_cons_cons, ← List.map_cons,
            List.count_append, List.count_append, ih, one]
          simp
          omega

private theorem equal_mem_header (items : List Item) : 61 ∈ header items :=
  List.mem_append_left _ (by decide)

private theorem specsOf_header_eq (items : List Item) :
    specsOf (header items) = ([44].intercalate (items.map Item.text)).splitOn 44 := by
  rw [specsOf, if_pos (equal_mem_header items)]
  rfl

theorem specsOf_header {items : List Item} (nonempty : items ≠ []) :
    specsOf (header items) = items.map Item.text := by
  rw [specsOf_header_eq]
  refine List.splitOn_intercalate 44 ?_ (by simpa using nonempty)
  rintro _ among
  obtain ⟨item, -, rfl⟩ := List.mem_map.1 among
  exact List.count_eq_zero.1 (item.count_text (by decide) (by decide))

theorem accepted_header {items : List Item} (nonempty : items ≠ []) :
    Http2.Accepted (header items) := by
  have commas := Http2.length_splitOn 44 ([44].intercalate (items.map Item.text))
  rw [← specsOf_header_eq, specsOf_header nonempty, List.length_map] at commas
  refine ⟨equal_mem_header items, rfl, ?_⟩
  rw [header, List.count_append, List.count_append, count_intercalate, commas]
  show 0 + _ = 1 + (0 + _)
  omega

end ByteRanges
end Server
end AdaWebServer

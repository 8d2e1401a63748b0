import AdaWebServer.Containers.HeaderSplit

/-!
# Lists of header items

Items are written with commas or semicolons between them and spaces around them.  `Next_Value` passes over
one character behind a value and the spaces that follow: a space in front of a separator leaves the
separator to be read as a value of its own.
-/

namespace AdaWebServer
namespace Containers
namespace HeaderValues

open Http2 (Octet Text text)

/-! ## Written items -/

/-- A token has neither delimiters nor quotes. -/
structure Token where
  chars : Text
  nonempty : chars ≠ []
  plain : ∀ octet ∈ chars, octet ∉ valueDelimiters ∧ octet ≠ 34

/-- What may stand between quotes. -/
structure QuotedText where
  chars : Text
  unquoted : 34 ∉ chars

/-- Spaces. -/
structure Blanks where
  chars : Text
  blank : ∀ octet ∈ chars, octet ∈ spaces

/-- An item of a header value. -/
inductive Item where
  | quoted (name : Token) (value : QuotedText)
  | plain (name value : Token)
  | unnamed (value : Token)

namespace Item

/-- The item is written. -/
def text : Item → Text
  | quoted name value => name.chars ++ 61 :: 34 :: (value.chars ++ [34])
  | plain name value => name.chars ++ 61 :: value.chars
  | unnamed value => value.chars

/-- What is to be read. -/
def data : Item → Data
  | quoted name value => ⟨some name.chars, value.chars⟩
  | plain name value => ⟨some name.chars, value.chars⟩
  | unnamed value => ⟨none, value.chars⟩

end Item

/-- The separators, each of which is followed by a space. -/
inductive Separator where
  | comma
  | semicolon

/-- The character of a separator. -/
def Separator.octet : Separator → Octet
  | comma => 44
  | semicolon => 59

theorem Separator.octet_mem (separator : Separator) : separator.octet ∈ entryDelimiters := by
  cases separator <;> decide

theorem Separator.octet_notMem (separator : Separator) : separator.octet ∉ spaces := by
  cases separator <;> decide

/-- An item with the spaces around it, and the separator from the next one. -/
structure Entry where
  before : Blanks
  item : Item
  after : Blanks
  separator : Separator

/-- The entries are written, without the last separator. -/
def render : List Entry → Text
  | [] => []
  | [entry] => entry.before.chars ++ (entry.item.text ++ entry.after.chars)
  | entry :: next :: later =>
      entry.before.chars ++ (entry.item.text ++
        (entry.after.chars ++ entry.separator.octet :: 32 :: render (next :: later)))

/-- What `Split` is to return. -/
def expected (entries : List Entry) : List Data := entries.map fun entry => entry.item.data

/-- `Split` returns the items in order, and `Parse` delivers them. -/
structure Returns (entries : List Entry) : Prop where
  split : split (render entries) = .ok (expected entries)
  parse : ∀ {σ : Type} (handler : Handler σ) (state : σ),
    parse handler (render entries) state = .ok (handler.deliver (expected entries) state)

/-- No space stands in front of a separator. -/
def Attached (entries : List Entry) : Prop :=
  ∀ entry ∈ entries.dropLast, entry.after.chars = []

instance (entries : List Entry) : Decidable (Attached entries) :=
  inferInstanceAs (Decidable (∀ entry ∈ entries.dropLast, _ = _))

/-! ## Reading an item -/

variable {data : Text} {first : Nat}

theorem drop_behind {front back : Text} (positive : 0 < first)
    (drop_eq : data.drop (first - 1) = front ++ back) : data.drop (first + front.length - 1) = back := by
  rw [(by omega : first + front.length - 1 = first - 1 + front.length), ← List.drop_drop, drop_eq,
    List.drop_left]

theorem slice_eq {front back : Text} (positive : 0 < first)
    (drop_eq : data.drop (first - 1) = front ++ back) :
    slice data first (first + front.length - 1) = front := by
  rw [slice, List.drop_take, drop_eq, (by omega : first + front.length - 1 - (first - 1) = front.length),
    List.take_left]

/-- The rest of the line ends, or goes on with a delimiter. -/
def Stops (rest : Text) : Prop := ∀ octet, rest.head? = some octet → octet ∈ entryDelimiters

/-- An index behind a part that does not pass the test: nothing is left, or what follows passes it. -/
theorem indexFrom_stops {value rest : Text} {test : Octet → Bool} (positive : 0 < first)
    (drop_eq : data.drop (first - 1) = value ++ rest) (misses : ∀ octet ∈ value, test octet = false)
    (stops : ∀ octet, rest.head? = some octet → test octet = true) :
    indexFrom data first test = 0 ∧ data.length ≤ first + value.length - 1 ∧ rest = [] ∨
      indexFrom data first test = first + value.length ∧
        data[first + value.length - 1]? = rest.head? ∧ rest ≠ [] := by
  cases rest with
  | nil =>
      have length_eq := congrArg List.length drop_eq
      rw [List.length_drop, List.append_nil] at length_eq
      rw [List.append_nil] at drop_eq
      exact .inl ⟨indexFrom_zero (drop_eq ▸ misses), by omega, rfl⟩
  | cons octet back =>
      exact .inr ⟨indexFrom_eq drop_eq misses (stops octet rfl), (at_index positive drop_eq).2,
        List.cons_ne_nil _ _⟩

theorem skipSpaces_over (beyond : data.length < first) : skipSpaces data first = 0 := if_pos beyond

theorem slice_end {value : Text} (positive : 0 < first) (drop_eq : data.drop (first - 1) = value)
    (within : data.length ≤ first + value.length - 1) : slice data first data.length = value := by
  have whole := slice_eq positive (drop_eq.trans value.append_nil.symm)
  rw [slice, List.take_of_length_le within] at whole
  rw [slice, List.take_length, whole]

theorem equals_notMem : (61 : Octet) ∉ entryDelimiters := by decide

theorem nextValue_unnamed {value rest : Text} (positive : 0 < first)
    (drop_eq : data.drop (first - 1) = value ++ rest)
    (plain : ∀ octet ∈ value, octet ∉ valueDelimiters) (stops : Stops rest) :
    nextValue data first = some ⟨none, value, skipSpaces data (first + value.length + 1)⟩ := by
  have found := indexFrom_stops positive drop_eq (fun octet member => decide_eq_false (plain octet member))
    fun octet head => decide_eq_true (List.mem_append_left (text "=") (stops octet head))
  rw [nextValue]
  obtain ⟨last_eq, beyond, rfl⟩ | ⟨last_eq, at_last, nonempty⟩ := found
  · rw [List.append_nil] at drop_eq
    rw [last_eq]
    dsimp only
    rw [if_pos rfl, slice_end positive drop_eq beyond, skipSpaces_over (by omega)]
  · have no_name : data[first + value.length - 1]? ≠ some 61 := by
      rw [at_last]
      exact fun head => equals_notMem (stops 61 head)
    rw [last_eq]
    dsimp only
    rw [if_neg (by omega), if_neg no_name, slice_eq positive drop_eq]

/-- A name leads to the branch for named values. -/
theorem nextValue_named {name rest : Text} (positive : 0 < first) (nonempty : name ≠ [])
    (drop_eq : data.drop (first - 1) = name ++ 61 :: rest)
    (plain : ∀ octet ∈ name, octet ∉ valueDelimiters) :
    nextValue data first =
      if first + name.length + 1 < data.length ∧ data[first + name.length]? = some 34 then
        if indexFrom data (first + name.length + 2) (· = 34) = 0 then none
        else some ⟨some name,
          slice data (first + name.length + 2) (indexFrom data (first + name.length + 2) (· = 34) - 1),
          skipSpaces data (indexFrom data (first + name.length + 2) (· = 34) + 2)⟩
      else if indexFrom data (first + name.length + 1) (· ∈ entryDelimiters) = 0 then
        some ⟨some name, slice data (first + name.length + 1) data.length, 0⟩
      else some ⟨some name, slice data (first + name.length + 1)
        (indexFrom data (first + name.length + 1) (· ∈ entryDelimiters) - 1),
        skipSpaces data (indexFrom data (first + name.length + 1) (· ∈ entryDelimiters) + 1)⟩ := by
  have last_eq := @indexFrom_eq data first (· ∈ valueDelimiters) name rest 61 drop_eq
    (fun octet member => decide_eq_false (plain octet member)) (by decide)
  have long := List.length_pos_iff.mpr nonempty
  have nonzero : first + name.length ≠ 0 := by omega
  have not_front : first + name.length ≠ 1 := by omega
  rw [nextValue, last_eq]
  dsimp only
  rw [if_neg nonzero, if_pos (at_index positive drop_eq).2, if_neg not_front,
    slice_eq positive drop_eq]
  rfl

/-- What follows a name and the equals sign. -/
theorem drop_behind_name {name rest : Text} (positive : 0 < first)
    (drop_eq : data.drop (first - 1) = name ++ 61 :: rest) :
    data.drop (first + name.length + 1 - 1) = rest := by
  have behind := drop_behind positive (drop_eq.trans (List.append_cons name 61 rest))
  rw [List.length_append, List.length_singleton, ← Nat.add_assoc] at behind
  exact behind

theorem nextValue_quoted {name value rest : Text} (positive : 0 < first) (nonempty : name ≠ [])
    (drop_eq : data.drop (first - 1) = name ++ 61 :: 34 :: (value ++ 34 :: rest))
    (plain : ∀ octet ∈ name, octet ∉ valueDelimiters) (unquoted : 34 ∉ value) :
    nextValue data first = some ⟨some name, value,
      skipSpaces data (first + (name.length + 2 + value.length + 1) + 1)⟩ := by
  have behind_name := drop_behind_name positive drop_eq
  have behind_quote : data.drop (first + name.length + 2 - 1) = value ++ 34 :: rest :=
    @drop_behind data _ [34] _ (Nat.succ_pos _) behind_name
  have closing_eq := @indexFrom_eq data (first + name.length + 2) (· = 34) value rest 34 behind_quote
    (fun octet member => decide_eq_false fun same => unquoted (same ▸ member)) (by decide)
  obtain ⟨opening_le, opening⟩ := @at_index data _ [] _ 34 (Nat.succ_pos _) behind_name
  have closing_le := (at_index (Nat.succ_pos _) behind_quote).1
  rw [List.length_nil, Nat.add_zero] at opening opening_le
  rw [nextValue_named positive nonempty drop_eq plain, closing_eq, if_pos ⟨by omega, opening⟩,
    if_neg (by omega), slice_eq (Nat.succ_pos _) behind_quote]
  congr 3
  omega

theorem nextValue_plain {name value rest : Text} (positive : 0 < first) (nonempty : name ≠ [])
    (drop_eq : data.drop (first - 1) = name ++ 61 :: (value ++ rest))
    (plain : ∀ octet ∈ name, octet ∉ valueDelimiters)
    (value_plain : ∀ octet ∈ value, octet ∉ entryDelimiters)
    (no_quote : (value ++ rest).head? ≠ some 34 ∨ value.length = 1 ∧ rest = []) (stops : Stops rest) :
    nextValue data first = some ⟨some name, value,
      skipSpaces data (first + (name.length + 1 + value.length) + 1)⟩ := by
  have behind_name := drop_behind_name positive drop_eq
  have unquoted : ¬ (first + name.length + 1 < data.length ∧
      data[first + name.length]? = some 34) := by
    rintro ⟨inside, quote⟩
    obtain no_quote | ⟨alone, rfl⟩ := no_quote
    · cases behind_eq : value ++ rest with
      | nil =>
          rw [behind_eq] at behind_name
          have := List.drop_eq_nil_iff.mp behind_name
          omega
      | cons head back =>
          rw [behind_eq] at behind_name no_quote
          have opening := (@at_index data _ [] _ head (Nat.succ_pos _) behind_name).2
          rw [List.length_nil, Nat.add_zero, Nat.add_sub_cancel, quote] at opening
          exact no_quote opening.symm
    · have length_eq := congrArg List.length behind_name
      rw [List.length_drop, List.length_append, alone, List.length_nil] at length_eq
      omega
  have found := indexFrom_stops (Nat.succ_pos _) behind_name
    (fun octet member => decide_eq_false (value_plain octet member))
    fun octet head => decide_eq_true (stops octet head)
  rw [nextValue_named positive nonempty drop_eq plain, if_neg unquoted]
  obtain ⟨stop_eq, beyond, rfl⟩ | ⟨stop_eq, -, -⟩ := found
  · rw [List.append_nil] at behind_name
    rw [if_pos stop_eq, slice_end (Nat.succ_pos _) behind_name beyond, skipSpaces_over (by omega)]
  · rw [stop_eq, if_neg (by omega), slice_eq (Nat.succ_pos _) behind_name]
    congr 3
    omega

/-! ## Reading a list -/

namespace Item

theorem text_cons (item : Item) : ∃ octet back, item.text = octet :: back ∧ octet ∉ valueDelimiters := by
  have token_cons : ∀ token : Token, ∃ octet back, token.chars = octet :: back ∧
      octet ∉ valueDelimiters := by
    intro token
    obtain ⟨octet, back, chars_eq⟩ := List.exists_cons_of_ne_nil token.nonempty
    exact ⟨octet, back, chars_eq, (token.plain octet (chars_eq ▸ List.mem_cons_self)).1⟩
  cases item with
  | quoted name value =>
      obtain ⟨octet, back, chars_eq, plain⟩ := token_cons name
      exact ⟨octet, _, by rw [text, chars_eq, List.cons_append], plain⟩
  | plain name value =>
      obtain ⟨octet, back, chars_eq, plain⟩ := token_cons name
      exact ⟨octet, _, by rw [text, chars_eq, List.cons_append], plain⟩
  | unnamed value => exact token_cons value

theorem data_ne (item : Item) : item.data ≠ ⟨none, []⟩ := by
  cases item with
  | quoted name value => exact fun same => nomatch (Data.mk.inj same).1
  | plain name value => exact fun same => nomatch (Data.mk.inj same).1
  | unnamed value => exact fun same => value.nonempty (Data.mk.inj same).2

end Item

/-- An item is read, and the character behind it is passed over with the spaces that follow. -/
theorem nextValue_item (item : Item) {rest : Text} (positive : 0 < first)
    (drop_eq : data.drop (first - 1) = item.text ++ rest) (stops : Stops rest) :
    nextValue data first = some ⟨item.data.name, item.data.value,
      skipSpaces data (first + item.text.length + 1)⟩ := by
  have plain : ∀ token : Token, ∀ octet ∈ token.chars, octet ∉ valueDelimiters :=
    fun token octet member => (token.plain octet member).1
  cases item with
  | quoted name value =>
      have drop_eq' : data.drop (first - 1) =
          name.chars ++ 61 :: 34 :: (value.chars ++ 34 :: rest) := by
        simpa [Item.text] using drop_eq
      have length_eq : (Item.quoted name value).text.length =
          name.chars.length + 2 + value.chars.length + 1 := by
        simp only [Item.text, List.length_append, List.length_cons, List.length_nil]
        omega
      rw [length_eq]
      exact nextValue_quoted positive name.nonempty drop_eq' (plain name) value.unquoted
  | plain name value =>
      have drop_eq' : data.drop (first - 1) = name.chars ++ 61 :: (value.chars ++ rest) := by
        simpa [Item.text] using drop_eq
      have length_eq : (Item.plain name value).text.length =
          name.chars.length + 1 + value.chars.length := by
        simp only [Item.text, List.length_append, List.length_cons]
        omega
      rw [length_eq]
      have no_quote : (value.chars ++ rest).head? ≠ some 34 := by
        rw [List.head?_append_of_ne_nil _ value.nonempty]
        exact fun head => (value.plain 34 (List.mem_of_mem_head? head)).2 rfl
      exact nextValue_plain positive name.nonempty drop_eq' (plain name)
        (fun octet member inside => plain value octet member (List.mem_append_left (Http2.text "=") inside))
        (.inl no_quote) stops
  | unnamed value => exact nextValue_unnamed positive drop_eq (plain value) stops

/-- Spaces are passed over up to another character or the end. -/
theorem skipSpaces_eq {blanks rest : Text} (positive : 0 < first)
    (drop_eq : data.drop (first - 1) = blanks ++ rest) (blank : ∀ octet ∈ blanks, octet ∈ spaces)
    (stops : ∀ octet, rest.head? = some octet → octet ∉ spaces) :
    skipSpaces data first = if rest = [] then 0 else first + blanks.length := by
  have found := indexFrom_stops positive drop_eq
    (fun octet member => decide_eq_false (not_not.mpr (blank octet member)))
    fun octet head => decide_eq_true (stops octet head)
  by_cases beyond : data.length < first
  · rw [List.drop_eq_nil_of_le (by omega)] at drop_eq
    rw [skipSpaces_over beyond, if_pos (List.append_eq_nil_iff.mp drop_eq.symm).2]
  · rw [skipSpaces, if_neg beyond, if_pos positive]
    obtain ⟨zero, -, rfl⟩ | ⟨index_eq, -, nonempty⟩ := found
    · rw [zero, if_pos rfl]
    · rw [index_eq, if_neg nonempty]

/-- A separator is read as an empty value. -/
theorem nextValue_separator {separator : Separator} {back : Text} (positive : 0 < first)
    (drop_eq : data.drop (first - 1) = separator.octet :: back) :
    ∃ following, nextValue data first = some ⟨none, [], following⟩ := by
  have delimiter : Stops (separator.octet :: back) := by
    rintro octet ⟨⟩
    exact separator.octet_mem
  exact ⟨_, nextValue_unnamed positive drop_eq nofun delimiter⟩

/-- What is written behind the item of an entry. -/
def behind (entry : Entry) : List Entry → Text
  | [] => entry.after.chars
  | next :: later => entry.after.chars ++ entry.separator.octet :: 32 :: render (next :: later)

theorem render_cons (entry : Entry) (later : List Entry) :
    render (entry :: later) = entry.before.chars ++ (entry.item.text ++ behind entry later) := by
  cases later <;> rfl

theorem stops_behind (entry : Entry) (later : List Entry) : Stops (behind entry later) := by
  intro octet head
  cases after_eq : entry.after.chars with
  | nil =>
      cases later with
      | nil =>
          rw [behind, after_eq] at head
          cases head
      | cons next later =>
          rw [behind, after_eq] at head
          cases head
          exact entry.separator.octet_mem
  | cons blank rest =>
      have inside : blank ∈ spaces := entry.after.blank blank (after_eq ▸ List.mem_cons_self)
      cases later <;>
      · rw [behind, after_eq] at head
        cases head
        exact List.mem_append_left _ inside

theorem drop_next {rest : Text} (positive : 0 < first) (drop_eq : data.drop (first - 1) = rest) :
    data.drop (first + 1 - 1) = rest.drop 1 := by
  rw [← drop_eq, List.drop_drop]
  congr 1
  omega

theorem attached_cons (entry next : Entry) (later : List Entry) :
    Attached (entry :: next :: later) ↔ entry.after.chars = [] ∧ Attached (next :: later) :=
  List.forall_mem_cons

/-- From an item on, `To_Set` returns the items exactly when no space stands in front of a
separator. -/
theorem toSet_iff (entry : Entry) (later : List Entry) (anchored : Anchored data first)
    (drop_eq : data.drop (first - 1) = entry.item.text ++ behind entry later) :
    toSet data first = .ok (expected (entry :: later)) ↔ Attached (entry :: later) := by
  induction later generalizing entry first with
  | nil =>
      have positive := anchored.positive
      have next_eq := nextValue_item entry.item positive drop_eq (stops_behind entry [])
      have after_item := drop_behind positive drop_eq
      have ended : skipSpaces data (first + entry.item.text.length + 1) = 0 := by
        have rest_eq : data.drop (first + entry.item.text.length + 1 - 1) =
            entry.after.chars.drop 1 ++ [] :=
          (drop_next (Nat.add_pos_left positive _) after_item).trans (List.append_nil _).symm
        exact skipSpaces_eq (Nat.succ_pos _) rest_eq
          (fun octet member => entry.after.blank octet (List.mem_of_mem_drop member)) nofun
      rw [toSet_step anchored next_eq]
      dsimp only
      rw [ended, toSet_zero]
      exact iff_of_true rfl nofun
  | cons next later ih =>
      have positive := anchored.positive
      have next_eq := nextValue_item entry.item positive drop_eq (stops_behind entry _)
      have after_item := drop_next (Nat.add_pos_left positive _) (drop_behind positive drop_eq)
      have next_positive : 0 < first + entry.item.text.length + 1 := Nat.succ_pos _
      rw [toSet_step anchored next_eq, attached_cons, expected, List.map_cons, ← expected]
      dsimp only
      cases after_eq : entry.after.chars with
      | nil =>
          -- The separator is passed over, and the spaces behind it lead to the next item.
          obtain ⟨octet, back, text_eq, plain⟩ := next.item.text_cons
          have no_space : octet ∉ spaces := fun inside =>
            plain (List.mem_append_left _ (List.mem_append_left _ inside))
          have rest_eq : data.drop (first + entry.item.text.length + 1 - 1) =
              (32 :: next.before.chars) ++ (next.item.text ++ behind next later) := by
            rw [after_item, behind, after_eq, render_cons]
            rfl
          have first_eq := skipSpaces_eq next_positive rest_eq
            (List.forall_mem_cons.mpr ⟨by decide, next.before.blank⟩)
            (by rw [text_eq]; rintro _ ⟨⟩; exact no_space)
          rw [if_neg (by rw [text_eq]; exact List.cons_ne_nil _ _)] at first_eq
          have at_next := drop_behind next_positive rest_eq
          rw [← first_eq] at at_next
          have reached := ih next (anchored.mono (by omega)) at_next
          rw [and_iff_right rfl, ← reached]
          cases toSet data (skipSpaces data (first + entry.item.text.length + 1)) with
          | error failure => exact iff_of_false nofun nofun
          | ok elements =>
              simp only [Except.map, Except.ok.injEq, List.cons.injEq, true_and]
      | cons blank rest =>
          -- The separator itself is read as an empty value.
          have blanks := entry.after.blank
          rw [after_eq] at blanks
          have rest_eq : data.drop (first + entry.item.text.length + 1 - 1) =
              rest ++ entry.separator.octet :: 32 :: render (next :: later) := by
            rw [after_item, behind, after_eq]
            rfl
          have first_eq := skipSpaces_eq next_positive rest_eq
            (List.forall_mem_cons.mp blanks).2
            (by rintro _ ⟨⟩; exact entry.separator.octet_notMem)
          rw [if_neg (List.cons_ne_nil _ _)] at first_eq
          have at_separator := drop_behind next_positive rest_eq
          rw [← first_eq] at at_separator
          have later_anchored : Anchored data (skipSpaces data (first + entry.item.text.length + 1)) :=
            anchored.mono (by omega)
          obtain ⟨following, separator_eq⟩ :=
            nextValue_separator later_anchored.positive at_separator
          rw [toSet_step later_anchored separator_eq]
          refine iff_of_false ?_ fun attached => List.cons_ne_nil _ _ attached.1
          intro same
          dsimp only at same
          generalize toSet data following = result at same
          cases result with
          | error failure => cases same
          | ok elements =>
              have elements_eq := (List.cons.inj (Except.ok.inj same)).2
              exact next.item.data_ne (List.cons.inj elements_eq).1.symm

/-- `Split` returns the items that are written exactly when no space stands in front of a separator. -/
theorem split_iff (entries : List Entry) :
    split (render entries) = .ok (expected entries) ↔ Attached entries := by
  cases entries with
  | nil =>
      have empty : split (render []) = .ok [] := toSet_zero
      exact iff_of_true empty nofun
  | cons entry later =>
      obtain ⟨octet, back, text_eq, plain⟩ := entry.item.text_cons
      have no_delimiter : octet ∉ entryDelimiters := fun inside =>
        plain (List.mem_append_left _ inside)
      have whole : (render (entry :: later)).drop (1 - 1) =
          entry.before.chars ++ (entry.item.text ++ behind entry later) := render_cons entry later
      have first_eq : firstIndex (render (entry :: later)) = 1 + entry.before.chars.length := by
        rw [text_eq] at whole
        exact indexFrom_eq whole
          (fun octet member => decide_eq_false (not_not.mpr
            (List.mem_append_left _ (entry.before.blank octet member))))
          (decide_eq_true no_delimiter)
      have at_item := drop_behind Nat.one_pos whole
      rw [← first_eq] at at_item
      have anchored := (start_firstIndex (render (entry :: later))).resolve_left (by omega)
      exact toSet_iff entry later anchored at_item

/-- `Split` and `Parse` raise nothing but `Format_Error`, on every string. -/
def Formatted : Prop :=
  ∀ headerValue : Text, OnlyFormatError headerValue (split headerValue) ∧
    ∀ {σ : Type} (handler : Handler σ) (state : σ),
      OnlyFormatError headerValue (parse handler headerValue state)

theorem formatted : Formatted := fun headerValue =>
  ⟨onlyFormatError_split headerValue, fun handler state =>
    onlyFormatError_parse handler headerValue state⟩

/-- The items of a list are returned in order exactly when no space stands in front of a separator.
In any case nothing but `Format_Error` is raised. -/
theorem returns_iff (entries : List Entry) : Returns entries ∧ Formatted ↔ Attached entries := by
  rw [and_iff_left formatted, ← split_iff]
  constructor
  · exact Returns.split
  · intro split_eq
    exact ⟨split_eq, fun handler state => parse_of_split split_eq handler state⟩

/-- A token of a single letter. -/
def letter : Token where
  chars := text "a"
  nonempty := by decide
  plain := by decide +kernel

/-- The text `a , a`. -/
theorem blank_before_comma :
    ¬ (Returns [⟨⟨[], nofun⟩, .unnamed letter, ⟨[32], by decide +kernel⟩, .comma⟩,
      ⟨⟨[], nofun⟩, .unnamed letter, ⟨[], nofun⟩, .comma⟩] ∧ Formatted) := by
  rintro ⟨returns, -⟩
  exact absurd ((split_iff _).mp returns.split) (by decide)

end HeaderValues
end Containers
end AdaWebServer

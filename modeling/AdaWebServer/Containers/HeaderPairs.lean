import AdaWebServer.Containers.HeaderItems

/-!
# Lines of named values

A line of names with values that may be empty, with separators between them.  It is split into them, and
the value of a name is found.
-/

namespace AdaWebServer
namespace Containers
namespace HeaderValues

open Http2 (Octet Text text)

/-- A name with a value that has neither delimiters nor quotes. -/
structure Pair where
  name : Token
  value : Text
  plain : ∀ octet ∈ value, octet ∉ entryDelimiters ∧ octet ≠ 34

namespace Pair

/-- The pair is written. -/
def text (pair : Pair) : Text := pair.name.chars ++ 61 :: pair.value

/-- What is to be read. -/
def data (pair : Pair) : Data := ⟨some pair.name.chars, pair.value⟩

end Pair

/-- A line of pairs, each separator of which is followed by a space. -/
inductive Line : List Pair → Text → Prop
  | single (pair : Pair) : Line [pair] pair.text
  | cons (pair : Pair) (separator : Separator) {pairs : List Pair} {rest : Text} :
      Line pairs rest → Line (pair :: pairs) (pair.text ++ separator.octet :: 32 :: rest)

/-- Lines are joined. -/
theorem Line.append {pairs more : List Pair} {front back : Text} (line : Line pairs front)
    (separator : Separator) (line' : Line more back) :
    Line (pairs ++ more) (front ++ separator.octet :: 32 :: back) := by
  induction line with
  | single pair => exact .cons pair separator line'
  | cons pair between line induction =>
      rw [List.append_assoc]
      exact .cons pair between induction

theorem Pair.text_cons (pair : Pair) :
    ∃ octet back, pair.text = octet :: back ∧ octet ∉ entryDelimiters := by
  obtain ⟨octet, back, chars_eq⟩ := List.exists_cons_of_ne_nil pair.name.nonempty
  have plain := (pair.name.plain octet (chars_eq ▸ List.mem_cons_self)).1
  exact ⟨octet, _, by rw [text, chars_eq, List.cons_append],
    fun inside => plain (List.mem_append_left _ inside)⟩

theorem Line.cons_eq {pairs : List Pair} {line : Text} (written : Line pairs line) :
    ∃ octet back, line = octet :: back ∧ octet ∉ entryDelimiters := by
  cases written with
  | single pair => exact pair.text_cons
  | cons pair separator later =>
      obtain ⟨octet, back, text_eq, plain⟩ := pair.text_cons
      exact ⟨octet, _, by rw [text_eq, List.cons_append], plain⟩

theorem Line.length_le {pairs : List Pair} {line : Text} (written : Line pairs line) :
    pairs.length ≤ line.length := by
  induction written with
  | single pair =>
      rw [Pair.text, List.length_append, List.length_cons]
      exact Nat.le_add_left _ _
  | cons pair separator later induction =>
      simp only [List.length_append, List.length_cons]
      omega

/-! ## Reading -/

variable {data : Text} {first : Nat}

theorem nextValue_pair (pair : Pair) {rest : Text} (positive : 0 < first)
    (drop_eq : data.drop (first - 1) = pair.text ++ rest) (stops : Stops rest) :
    nextValue data first = some ⟨some pair.name.chars, pair.value,
      skipSpaces data (first + pair.text.length + 1)⟩ := by
  have drop_eq' : data.drop (first - 1) = pair.name.chars ++ 61 :: (pair.value ++ rest) := by
    rw [drop_eq, Pair.text, List.append_assoc]
    rfl
  have length_eq : pair.text.length = pair.name.chars.length + 1 + pair.value.length := by
    rw [Pair.text, List.length_append, List.length_cons]
    omega
  have no_quote : (pair.value ++ rest).head? ≠ some 34 := by
    cases value_eq : pair.value with
    | nil => exact fun head => absurd (stops 34 head) (by decide)
    | cons octet back =>
        rintro ⟨⟩
        exact (pair.plain 34 (value_eq ▸ List.mem_cons_self)).2 rfl
  rw [length_eq]
  exact nextValue_plain positive pair.name.nonempty drop_eq'
    (fun octet member => (pair.name.plain octet member).1)
    (fun octet member => (pair.plain octet member).1) (.inl no_quote) stops

/-- The last pair is read, and the line ends. -/
theorem nextValue_last (pair : Pair) (positive : 0 < first)
    (drop_eq : data.drop (first - 1) = pair.text) :
    nextValue data first = some ⟨some pair.name.chars, pair.value, 0⟩ := by
  have drop_eq' : data.drop (first - 1) = pair.text ++ [] := drop_eq.trans (List.append_nil _).symm
  have next_eq := nextValue_pair pair positive drop_eq' (by rintro _ ⟨⟩)
  have ended : data.length < first + pair.text.length + 1 := by
    have length_eq := congrArg List.length drop_eq
    rw [List.length_drop] at length_eq
    omega
  rw [next_eq, skipSpaces_over ended]

/-- A pair in front of a separator is read, and the next one follows. -/
theorem nextValue_front (pair : Pair) (separator : Separator) {pairs : List Pair} {rest : Text}
    (written : Line pairs rest) (positive : 0 < first)
    (drop_eq : data.drop (first - 1) = pair.text ++ separator.octet :: 32 :: rest) :
    ∃ next, nextValue data first = some ⟨some pair.name.chars, pair.value, next⟩ ∧
      first < next ∧ data.drop (next - 1) = rest := by
  have stops : Stops (separator.octet :: 32 :: rest) := by
    rintro octet ⟨⟩
    exact separator.octet_mem
  have next_eq := nextValue_pair pair positive drop_eq stops
  have behind : data.drop (first + pair.text.length + 1 - 1) = [32] ++ rest :=
    drop_next (Nat.add_pos_left positive _) (drop_behind positive drop_eq)
  obtain ⟨octet, back, rest_eq, plain⟩ := written.cons_eq
  have skipped := skipSpaces_eq (Nat.succ_pos _) behind (by simp [spaces])
    (by
      rw [rest_eq]
      rintro _ ⟨⟩ inside
      exact plain (List.mem_append_left _ inside))
  rw [if_neg (rest_eq ▸ List.cons_ne_nil _ _)] at skipped
  rw [skipped] at next_eq
  exact ⟨_, next_eq, by omega, drop_behind (Nat.succ_pos _) behind⟩

theorem toSet_line {pairs : List Pair} {line : Text} (written : Line pairs line)
    (anchored : Anchored data first) (drop_eq : data.drop (first - 1) = line) :
    toSet data first = .ok (pairs.map Pair.data) := by
  induction written generalizing first with
  | single pair =>
      rw [toSet_step anchored (nextValue_last pair anchored.positive drop_eq), toSet_zero]
      rfl
  | cons pair separator written induction =>
      obtain ⟨next, next_eq, behind, rest_eq⟩ :=
        nextValue_front pair separator written anchored.positive drop_eq
      rw [toSet_step anchored next_eq, induction (anchored.mono (Nat.le_of_lt behind)) rest_eq]
      rfl

/-- The value of the first pair with a name, if there is one. -/
def valueOf (name : Text) (pairs : List Pair) : Option Text :=
  (pairs.find? fun pair => pair.name.chars = name).map Pair.value

theorem searchLoop_line {pairs : List Pair} {line name : Text} (written : Line pairs line)
    {times : Nat} (enough : pairs.length ≤ times) (positive : 0 < first)
    (drop_eq : data.drop (first - 1) = line) :
    searchLoop data name times first = some ((valueOf name pairs).getD []) := by
  induction written generalizing first times with
  | single pair =>
      obtain ⟨times, rfl⟩ : ∃ later, times = later + 1 := Nat.exists_eq_add_of_le' enough
      rw [searchLoop, nextValue_last pair positive drop_eq, valueOf, List.find?_cons]
      by_cases same : pair.name.chars = name <;> simp [same]
  | cons pair separator written induction =>
      obtain ⟨times, rfl⟩ : ∃ later, times = later + 1 :=
        Nat.exists_eq_add_of_le' (Nat.le_trans (Nat.le_add_left 1 _) enough)
      obtain ⟨next, next_eq, behind, rest_eq⟩ :=
        nextValue_front pair separator written positive drop_eq
      rw [searchLoop, next_eq, valueOf, List.find?_cons]
      by_cases same : pair.name.chars = name
      · simp [same]
      · have later := induction (Nat.le_of_succ_le_succ enough) (by omega) rest_eq
        have nonzero : next ≠ 0 := by omega
        simpa [same, nonzero, valueOf] using later

theorem firstIndex_line {pairs : List Pair} {line : Text} (written : Line pairs line) :
    firstIndex line = 1 := by
  obtain ⟨octet, back, rfl, plain⟩ := written.cons_eq
  exact @indexFrom_eq (octet :: back) 1 _ [] back octet rfl (by rintro _ ⟨⟩) (decide_eq_true plain)

/-- `Split` gives the pairs of a line. -/
theorem split_line {pairs : List Pair} {line : Text} (written : Line pairs line) :
    split line = .ok (pairs.map Pair.data) := by
  have anchored := (start_firstIndex line).resolve_left (by rw [firstIndex_line written]; decide)
  rw [firstIndex_line written] at anchored
  rw [split, firstIndex_line written]
  exact toSet_line written anchored rfl

/-- `Search` gives the value of the first pair with the name. -/
theorem search_line {pairs : List Pair} {line : Text} (written : Line pairs line) (name : Text) :
    search line name = some ((valueOf name pairs).getD []) := by
  have start := firstIndex_line written
  rw [firstIndex] at start
  rw [search, start]
  exact searchLoop_line written written.length_le Nat.one_pos rfl

end HeaderValues
end Containers
end AdaWebServer

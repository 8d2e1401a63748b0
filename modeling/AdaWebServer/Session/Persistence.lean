import AdaWebServer.Foundations.Protected
import AdaWebServer.Foundations.StreamAttributes
import AdaWebServer.Session.Database

/-!
# Saving and loading the sessions

The sessions that have data are written to a file, each with its identifier, the number of its pairs
and the pairs.  They are read back until the end of the file, through the calls of the database that
add a session and set a value.
-/

namespace AdaWebServer
namespace Session

open Http2 (Text text)
open StreamAttributes

/-! ## Saving -/

/-- The lower bounds of the strings that a database holds as keys and as values. -/
structure LowerBounds where
  key : Id → Text → Int
  value : Id → Text → Int

/-- The body of the loop of `Process_Session`. -/
def pairOutput (bounds : LowerBounds) (sid : Id) (pair : Text × Text) : List UInt8 :=
  stringOutput (bounds.key sid pair.1) pair.1 ++ stringOutput (bounds.value sid pair.1) pair.2

/-- `Process_Session`. -/
def processSession (bounds : LowerBounds) (position : Id × SessionNode) : List UInt8 :=
  let keyValueSize := position.2.root.size
  if keyValueSize > 0 then
    stringOutput 1 position.1 ++
      (integerOutput keyValueSize ++ position.2.root.toList.flatMap (pairOutput bounds position.1))
  else []

/-- `Save`, with the octets of the file. -/
def save (bounds : LowerBounds) (db : Database) : List UInt8 × Database :=
  let locked := db.lock
  (locked.sessions.toList.flatMap (processSession bounds), locked.unlock)

/-! ## Loading -/

/-- The file that is read, the database, and how often the clock has been read. -/
structure Loading where
  unread : List UInt8
  db : Database
  readings : Nat := 0

/-- Why a call does not return. -/
inductive LoadStop where
  | raised (failure : StreamError)
  /-- At the entry of a locked database. -/
  | waiting
  deriving DecidableEq

variable {α β : Type}

/-- An input attribute. -/
def input (reader : Reader α) : EStateM LoadStop Loading α := fun state =>
  match reader state.unread with
  | .ok (item, rest) => .ok item { state with unread := rest }
  | .error failure => .error (.raised failure) state

/-- A call of the database, which reads the clock. -/
def call (clock : Nat → Int) (request : Request) : EStateM LoadStop Loading Unit := fun state =>
  if request.Open state.db then
    .ok ⟨⟩
      { state with
        db := request.perform (clock state.readings) state.db
        readings := state.readings + 1 }
  else .error .waiting state

/-- The loop of `Load` over the pairs of a session. -/
def loadPairs (clock : Nat → Int) (sid : Id) : Nat → EStateM LoadStop Loading Unit
  | 0 => pure ⟨⟩
  | count + 1 => do
      let key ← input stringInput
      let value ← input stringInput
      call clock (.setValue sid key value)
      loadPairs clock sid count

/-- The body of the loop of `Load` over the sessions. -/
def loadSession (clock : Nat → Int) (idLength : Nat) : EStateM LoadStop Loading Unit := do
  let sid ← input (fixedStringInput idLength)
  call clock (.addSession sid)
  let keyValueSize ← input naturalInput
  loadPairs clock sid keyValueSize

/-- A computation that leaves at least so many octets less than it has found. -/
def Advances (count : Nat) (operation : EStateM LoadStop Loading α) : Prop :=
  ∀ state item next, operation state = .ok item next →
    next.unread.length + count ≤ state.unread.length

theorem Advances.pure (item : α) : Advances 0 (pure item) := by
  intro state found next returned
  cases returned
  exact Nat.le_refl _

theorem Advances.bind {count more : Nat} {first : EStateM LoadStop Loading α}
    {second : α → EStateM LoadStop Loading β} (advances : Advances count first)
    (later : ∀ item, Advances more (second item)) : Advances (count + more) (first >>= second) := by
  intro state found next returned
  cases taken : first state with
  | error failure left =>
      rw [Protected.bind_raised taken] at returned
      cases returned
  | ok item between =>
      rw [Protected.bind_returned taken] at returned
      have := advances _ _ _ taken
      have := later _ _ _ _ returned
      omega

theorem input_advances {count : Nat} {reader : Reader α} (consumes : Consumes count reader) :
    Advances count (input reader) := by
  intro state found next returned
  rw [input] at returned
  split at returned
  · rename_i item rest read
    cases returned
    exact consumes _ _ _ read
  · cases returned

theorem call_advances (clock : Nat → Int) (request : Request) : Advances 0 (call clock request) := by
  intro state found next returned
  rw [call] at returned
  split_ifs at returned
  cases returned
  exact Nat.le_refl _

theorem loadPairs_advances (clock : Nat → Int) (sid : Id) (count : Nat) :
    Advances 0 (loadPairs clock sid count) := by
  induction count with
  | zero => exact Advances.pure _
  | succ count induction =>
      have pair : Advances (8 + (8 + (0 + 0))) (loadPairs clock sid (count + 1)) :=
        (input_advances stringInput_consumes).bind fun key =>
          (input_advances stringInput_consumes).bind fun value =>
            (call_advances clock _).bind fun _ => induction
      intro state found next returned
      have := pair _ _ _ returned
      omega

theorem loadSession_advances (clock : Nat → Int) (idLength : Nat) :
    Advances 8 (loadSession clock idLength) := by
  have session : Advances (8 + (0 + (4 + 0))) (loadSession clock idLength) :=
    (input_advances (fixedStringInput_consumes idLength)).bind fun sid =>
      (call_advances clock _).bind fun _ =>
        (input_advances naturalInput_consumes).bind fun count => loadPairs_advances clock sid count
  intro state found next returned
  have := session _ _ _ returned
  omega

/-- A turn of the loop of `Load` takes something from the file. -/
theorem loadSession_shorter {clock : Nat → Int} {idLength : Nat} {state next : Loading}
    (returned : loadSession clock idLength state = .ok ⟨⟩ next) :
    next.unread.length < state.unread.length := by
  have := loadSession_advances clock idLength _ _ _ returned
  omega

/-- `Load`. -/
def load (clock : Nat → Int) (idLength : Nat) (state : Loading) :
    EStateM.Result LoadStop Loading Unit :=
  if state.unread = [] then .ok ⟨⟩ state
  else
    match _ : loadSession clock idLength state with
    | .ok ⟨⟩ next => load clock idLength next
    | .error failure next => .error failure next
termination_by state.unread.length
decreasing_by exact loadSession_shorter (by assumption)

section Turns

variable {clock : Nat → Int} {idLength : Nat} {state next : Loading}

theorem load_ended (ended : state.unread = []) : load clock idLength state = .ok ⟨⟩ state := by
  rw [load, if_pos ended]

theorem load_turn (returned : loadSession clock idLength state = .ok ⟨⟩ next) :
    load clock idLength state = load clock idLength next := by
  have some_left : state.unread ≠ [] := by
    intro empty
    have := loadSession_shorter returned
    rw [empty] at this
    exact absurd this (Nat.not_lt_zero _)
  rw [load, if_neg some_left]
  split
  · rename_i again equal
    rw [returned] at equal
    cases equal
    rfl
  · rename_i failure again equal
    rw [returned] at equal
    cases equal

end Turns

/-! ## What a database holds -/

section Assignments

variable {κ ν : Type} [DecidableEq κ] {base : κ → Option ν} {entries : List (κ × ν)} {key : κ}
  {value : ν}

/-- Set the values of some keys, one after the other. -/
def assign (base : κ → Option ν) (entries : List (κ × ν)) : κ → Option ν :=
  entries.foldl (fun values entry => Function.update values entry.1 (some entry.2)) base

theorem assign_eq_some (distinct : (entries.map Prod.fst).Nodup) :
    assign base entries key = some value ↔
      (key, value) ∈ entries ∨ key ∉ entries.map Prod.fst ∧ base key = some value := by
  induction entries generalizing base with
  | nil => simp [assign]
  | cons entry entries induction =>
      obtain ⟨first, firstValue⟩ := entry
      obtain ⟨fresh, rest⟩ := List.nodup_cons.mp distinct
      have remaining := @induction (Function.update base first (some firstValue)) rest
      rw [assign, List.foldl_cons, ← assign, remaining]
      by_cases same : key = first
      · subst same
        have absent : (key, value) ∉ entries := fun member =>
          fresh (List.mem_map.mpr ⟨_, member, rfl⟩)
        have notLater : key ∉ entries.map Prod.fst := fresh
        rw [Function.update_self, List.map_cons, List.mem_cons, List.mem_cons]
        simp only [absent, notLater, Prod.mk.injEq, Option.some.injEq, eq_comm (a := value)]
        simp
      · rw [Function.update_of_ne same]
        simp [same]

end Assignments

namespace Database

/-- The sessions of a database, with their keys and values. -/
def contents (db : Database) (sid : Id) : Option (Text → Option Text) :=
  db.sessions[sid]?.map fun node key => node.root[key]?

variable {db : Database} {sid : Id} {values : Text → Option Text}

theorem contents_addSession (now : Int) (fresh : db.contents sid = none) :
    (db.addSession sid now).contents = Function.update db.contents sid (some fun _ => none) := by
  have absent : db.sessions.contains sid = false := by
    rw [contents, Option.map_eq_none_iff] at fresh
    rw [Std.TreeMap.contains_eq_isSome_getElem?, fresh]
    rfl
  funext other
  rw [addSession, insert, if_neg (by rw [absent]; exact Bool.false_ne_true), contents]
  by_cases same : other = sid
  · subst same
    simp
  · rw [Function.update_of_ne same, contents]
    simp [Std.TreeMap.getElem?_insert, Ne.symm same]

theorem contents_setValue (key value : Text) (now : Int) (present : db.contents sid = some values) :
    (db.setValue sid key value now).contents =
      Function.update db.contents sid (some (Function.update values key (some value))) := by
  obtain ⟨node, found, rfl⟩ := Option.map_eq_some_iff.mp present
  funext other
  rw [setValue, updateRoot, getNode, found, contents]
  by_cases same : other = sid
  · subst same
    simp only [Std.TreeMap.getElem?_insert_self, Option.map_some, Function.update_self]
    congr 1
    funext field
    by_cases equal : field = key
    · subst equal
      simp
    · rw [Function.update_of_ne equal]
      simp [Std.TreeMap.getElem?_insert, Ne.symm equal]
  · rw [Function.update_of_ne same, contents]
    simp [Std.TreeMap.getElem?_insert, Ne.symm same]

end Database

theorem assign_toList (root : Std.TreeMap Text Text) :
    assign (fun _ => none) root.toList = fun key => root[key]? := by
  have distinct : (root.toList.map Prod.fst).Nodup := by
    rw [List.nodup_iff_pairwise_ne, List.pairwise_map]
    exact root.distinct_keys_toList.imp fun different same =>
      different (Std.LawfulEqCmp.compare_eq_iff_eq.mpr same)
  funext key
  ext value
  rw [assign_eq_some distinct, Std.TreeMap.mem_toList_iff_getElem?_eq_some]
  simp

/-! ## Loading what has been saved -/

/-- A view of the sessions of a database. -/
abbrev Contents := Id → Option (Text → Option Text)

/-- What is left of the file, and the sessions of the database, to which calls are open. -/
structure Has (unread : List UInt8) (contents : Contents) (state : Loading) : Prop where
  unread : state.unread = unread
  contents : state.db.contents = contents
  unlocked : state.db.lockCounter = 0

/-- The computation reads what has been written, and the sessions become others. -/
def Loads (written : List UInt8) (before : Contents) (operation : EStateM LoadStop Loading α)
    (item : α) (after : Contents) : Prop :=
  ∀ rest state, Has (written ++ rest) before state →
    ∃ next, operation state = .ok item next ∧ Has rest after next

section Loads

variable {written more : List UInt8} {before between after : Contents}

theorem Loads.pure (item : α) (contents : Contents) : Loads [] contents (pure item) item contents :=
  fun _ state has => ⟨state, rfl, has⟩

theorem Loads.bind {first : EStateM LoadStop Loading α} {second : α → EStateM LoadStop Loading β}
    {item : α} {result : β} (loads : Loads written before first item between)
    (later : Loads more between (second item) result after) :
    Loads (written ++ more) before (first >>= second) result after := by
  intro rest state has
  rw [List.append_assoc] at has
  obtain ⟨middle, returned, has⟩ := loads _ state has
  obtain ⟨next, ended, has⟩ := later _ middle has
  exact ⟨next, (Protected.bind_returned returned).trans ended, has⟩

theorem Loads.input {reader : Reader α} {item : α} (restores : Restores written reader item)
    (contents : Contents) : Loads written contents (input reader) item contents := by
  intro rest state has
  refine ⟨{ state with unread := rest }, ?_, rfl, has.contents, has.unlocked⟩
  rw [Session.input, has.unread, restores]

/-- `Add_Session` for a new identifier. -/
theorem loads_addSession (clock : Nat → Int) {sid : Id} (fresh : before sid = none) :
    Loads [] before (call clock (.addSession sid)) ⟨⟩
      (Function.update before sid (some fun _ => none)) := by
  intro rest state has
  have absent : state.db.contents sid = none := by rw [has.contents, fresh]
  refine ⟨_, if_pos has.unlocked, has.unread, ?_, ?_⟩
  · rw [← has.contents]
    exact Database.contents_addSession _ absent
  · change (Database.insert _ _ _).lockCounter = 0
    rw [Database.insert]
    split_ifs <;> exact has.unlocked

/-- `Set_Value` for a session that exists. -/
theorem loads_setValue (clock : Nat → Int) {sid : Id} {values : Text → Option Text}
    (key value : Text) (present : before sid = some values) :
    Loads [] before (call clock (.setValue sid key value)) ⟨⟩
      (Function.update before sid (some (Function.update values key (some value)))) := by
  intro rest state has
  have found : state.db.contents sid = some values := by rw [has.contents, present]
  refine ⟨_, if_pos has.unlocked, has.unread, ?_, ?_⟩
  · rw [← has.contents]
    exact Database.contents_setValue key value _ found
  · change (Database.setValue _ _ _ _ _).lockCounter = 0
    obtain ⟨node, known, -⟩ := Option.map_eq_some_iff.mp found
    rw [Database.setValue, Database.updateRoot, Database.getNode, known]
    exact has.unlocked

variable {bounds : LowerBounds} {sid : Id}

theorem loads_pairs (clock : Nat → Int) {pairs : List (Text × Text)} {values : Text → Option Text}
    (bounded : ∀ pair ∈ pairs,
      Bounded (bounds.key sid pair.1) pair.1 ∧ Bounded (bounds.value sid pair.1) pair.2)
    (present : before sid = some values) :
    Loads (pairs.flatMap (pairOutput bounds sid)) before (loadPairs clock sid pairs.length) ⟨⟩
      (Function.update before sid (some (assign values pairs))) := by
  induction pairs generalizing before values with
  | nil =>
      change Loads [] before _ _ (Function.update before sid (some values))
      rw [← present, Function.update_eq_self]
      exact Loads.pure _ _
  | cons pair pairs induction =>
      obtain ⟨keyBounded, valueBounded⟩ := bounded pair List.mem_cons_self
      let set := Function.update values pair.1 (some pair.2)
      have later := @induction (Function.update before sid (some set)) set
        (fun other member => bounded other (List.mem_cons_of_mem _ member))
        (Function.update_self _ _ _)
      rw [Function.update_idem] at later
      rw [List.flatMap_cons, pairOutput, List.append_assoc, List.length_cons, loadPairs]
      refine Loads.bind (Loads.input (string_restores keyBounded) before) ?_
      refine Loads.bind (Loads.input (string_restores valueBounded) before) ?_
      exact Loads.bind (loads_setValue clock pair.1 pair.2 present) later

end Loads

/-- What the types of the strings and of the counts promise: every identifier has the length of the
type `Id`, and the counts and the bounds are integers. -/
structure Storable (idLength : Nat) (bounds : LowerBounds) (db : Database) : Prop where
  length_lt : idLength < 2 ^ 31
  identifier : ∀ (sid : Id) node, db.sessions[sid]? = some node → sid.length = idLength
  size_lt : ∀ (sid : Id) node, db.sessions[sid]? = some node → node.root.size < 2 ^ 31
  pairs : ∀ (sid : Id) node (key : Text) value, db.sessions[sid]? = some node →
    node.root[key]? = some value →
    Bounded (bounds.key sid key) key ∧ Bounded (bounds.value sid key) value

namespace Storable

variable {idLength : Nat} {bounds : LowerBounds} {db : Database} {sid : Id} {node : SessionNode}

/-- A session that has data is written, and becomes one of the sessions. -/
theorem loads_session (storable : Storable idLength bounds db) (found : db.sessions[sid]? = some node)
    (nonempty : 0 < node.root.size) (clock : Nat → Int) {before : Contents}
    (fresh : before sid = none) :
    Loads (processSession bounds (sid, node)) before (loadSession clock idLength) ⟨⟩
      (Function.update before sid (some fun key => node.root[key]?)) := by
  have length := storable.identifier sid node found
  have sidBounded : Bounded 1 sid := Bounded.of_length (length ▸ storable.length_lt)
  have pairsBounded : ∀ pair ∈ node.root.toList,
      Bounded (bounds.key sid pair.1) pair.1 ∧ Bounded (bounds.value sid pair.1) pair.2 :=
    fun pair member => storable.pairs sid node pair.1 pair.2 found
      (Std.TreeMap.mem_toList_iff_getElem?_eq_some.mp member)
  have added := loads_addSession clock fresh
  have pairs := loads_pairs clock pairsBounded
    (Function.update_self sid (some fun _ => none) before)
  rw [Function.update_idem, assign_toList, Std.TreeMap.length_toList] at pairs
  rw [processSession, if_pos nonempty, loadSession]
  refine Loads.bind (length ▸ Loads.input (fixedString_restores sidBounded) before) ?_
  rw [← List.nil_append (integerOutput _ ++ _)]
  refine Loads.bind added ?_
  exact Loads.bind (Loads.input (natural_restores (storable.size_lt sid node found)) _) pairs

/-- The sessions of a list that have data. -/
def written (positions : List (Id × SessionNode)) : List (Id × (Text → Option Text)) :=
  (positions.filter fun position => 0 < position.2.root.size).map fun position =>
    (position.1, fun key => position.2.root[key]?)

/-- The loop of `Load` over the sessions that are left. -/
theorem load_positions (storable : Storable idLength bounds db) (clock : Nat → Int)
    {positions : List (Id × SessionNode)} (distinct : (positions.map Prod.fst).Nodup)
    (known : ∀ position ∈ positions, db.sessions[position.1]? = some position.2)
    {before : Contents} (fresh : ∀ position ∈ positions, before position.1 = none)
    {state : Loading} (has : Has (positions.flatMap (processSession bounds)) before state) :
    ∃ next, load clock idLength state = .ok ⟨⟩ next ∧
      Has [] (assign before (written positions)) next := by
  induction positions generalizing before state with
  | nil =>
      exact ⟨state, load_ended has.unread, has⟩
  | cons position positions induction =>
      obtain ⟨sid, node⟩ := position
      obtain ⟨other, distinct⟩ := List.nodup_cons.mp distinct
      have known' := fun position member => known position (List.mem_cons_of_mem _ member)
      have fresh' := fun position member => fresh position (List.mem_cons_of_mem _ member)
      by_cases nonempty : 0 < node.root.size
      · have loads := storable.loads_session (known _ List.mem_cons_self) nonempty clock
          (fresh _ List.mem_cons_self)
        obtain ⟨middle, returned, has'⟩ := loads _ state has
        have later : ∀ position ∈ positions,
            Function.update before sid (some fun key => node.root[key]?) position.1 = none := by
          intro position member
          have different : position.1 ≠ sid := fun same =>
            other (List.mem_map.mpr ⟨position, member, same⟩)
          rw [Function.update_of_ne different]
          exact fresh' position member
        obtain ⟨next, ended, has''⟩ := induction distinct known' later has'
        refine ⟨next, (load_turn returned).trans ended, ?_⟩
        rw [written, List.filter_cons_of_pos (by simpa using nonempty)]
        exact has''
      · have skipped : processSession bounds (sid, node) = [] := if_neg nonempty
        rw [List.flatMap_cons, skipped, List.nil_append] at has
        rw [written, List.filter_cons_of_neg (by simpa using nonempty)]
        exact induction distinct known' fresh' has

theorem known (db : Database) : ∀ position ∈ db.sessions.toList,
    db.sessions[position.1]? = some position.2 :=
  fun _ member => Std.TreeMap.mem_toList_iff_getElem?_eq_some.mp member

theorem distinct (db : Database) : (db.sessions.toList.map Prod.fst).Nodup := by
  rw [List.nodup_iff_pairwise_ne, List.pairwise_map]
  exact db.sessions.distinct_keys_toList.imp fun different same =>
    different (Std.LawfulEqCmp.compare_eq_iff_eq.mpr same)

theorem written_distinct (db : Database) :
    ((written db.sessions.toList).map Prod.fst).Nodup := by
  rw [written, List.map_map]
  exact (distinct db).sublist (List.filter_sublist.map _)

theorem mem_written {pairs : Text → Option Text} :
    (sid, pairs) ∈ written db.sessions.toList ↔
      db.contents sid = some pairs ∧ ∃ key, pairs key ≠ none := by
  have some_key (node : SessionNode) :
      0 < node.root.size ↔ ∃ key : Text, node.root[key]? ≠ none := by
    rw [Nat.pos_iff_ne_zero, ← not_iff_not, not_not, ← beq_iff_eq,
      ← Std.TreeMap.isEmpty_eq_size_eq_zero, Std.TreeMap.isEmpty_iff_forall_not_mem]
    simp
  simp only [written, List.mem_map, List.mem_filter, Database.contents, Option.map_eq_some_iff,
    Prod.exists, Prod.mk.injEq, decide_eq_true_eq, some_key,
    Std.TreeMap.mem_toList_iff_getElem?_eq_some]
  constructor
  · rintro ⟨other, node, ⟨found, nonempty⟩, rfl, rfl⟩
    exact ⟨⟨node, found, rfl⟩, nonempty⟩
  · rintro ⟨⟨node, found, rfl⟩, nonempty⟩
    exact ⟨sid, node, ⟨found, nonempty⟩, rfl, rfl⟩

end Storable

/-- Loading a file that has been saved into an empty database gives the sessions that have data, with
the same keys and the same values, and leaves the saved database as it was. -/
theorem load_save {idLength : Nat} {bounds : LowerBounds} {db empty : Database}
    (storable : Storable idLength bounds db) (clock : Nat → Int)
    (no_sessions : empty.sessions.isEmpty) (unlocked : empty.lockCounter = 0) :
    (save bounds db).2 = db ∧
      ∃ loaded, load clock idLength { unread := (save bounds db).1, db := empty } = .ok ⟨⟩ loaded ∧
        ∀ sid pairs, loaded.db.contents sid = some pairs ↔
          db.contents sid = some pairs ∧ ∃ key, pairs key ≠ none := by
  refine ⟨rfl, ?_⟩
  have none_there : empty.contents = fun _ => none := by
    funext sid
    rw [Database.contents, Option.map_eq_none_iff]
    exact Std.TreeMap.getElem?_of_isEmpty no_sessions
  have has : Has (db.sessions.toList.flatMap (processSession bounds)) (fun _ => none)
      { unread := (save bounds db).1, db := empty } := ⟨rfl, none_there, unlocked⟩
  obtain ⟨loaded, returned, has⟩ := storable.load_positions clock (Storable.distinct db)
    (Storable.known db) (fun _ _ => rfl) has
  refine ⟨loaded, returned, fun sid pairs => ?_⟩
  rw [has.contents, assign_eq_some (Storable.written_distinct db), Storable.mem_written]
  simp

/-- A session with data and one without. -/
def savedDatabase : Database :=
  (((({ removeMark := text "  " } : Database).addSession (text "ab") 0).setValue (text "ab") (text "k")
    (text "a&b=c") 1).addSession (text "cd") 2)

theorem savedDatabase_storable : Storable 2 ⟨fun _ _ => 1, fun _ _ => 1⟩ savedDatabase := by
  have positions : ∀ position ∈ savedDatabase.sessions.toList,
      position.1.length = 2 ∧ position.2.root.size < 2 ^ 31 ∧
        ∀ pair ∈ position.2.root.toList, pair.1.length < 2 ^ 31 ∧ pair.2.length < 2 ^ 31 := by
    decide +kernel
  have stored (sid : Id) (node : SessionNode) (found : savedDatabase.sessions[sid]? = some node) :=
    positions (sid, node) (Std.TreeMap.mem_toList_iff_getElem?_eq_some.mpr found)
  refine ⟨by decide, fun sid node found => (stored sid node found).1,
    fun sid node found => (stored sid node found).2.1, ?_⟩
  intro sid node key value found item
  have lengths := (stored sid node found).2.2 (key, value)
    (Std.TreeMap.mem_toList_iff_getElem?_eq_some.mpr item)
  exact ⟨Bounded.of_length lengths.1, Bounded.of_length lengths.2⟩

theorem load_save_savedDatabase :
    (save ⟨fun _ _ => 1, fun _ _ => 1⟩ savedDatabase).2 = savedDatabase ∧
      ∃ loaded, load (fun _ => 0) 2
          { unread := (save ⟨fun _ _ => 1, fun _ _ => 1⟩ savedDatabase).1
            db := { removeMark := text "  " } } = .ok ⟨⟩ loaded ∧
        ∀ sid pairs, loaded.db.contents sid = some pairs ↔
          savedDatabase.contents sid = some pairs ∧ ∃ key, pairs key ≠ none :=
  load_save savedDatabase_storable (fun _ => 0) rfl rfl

end Session
end AdaWebServer

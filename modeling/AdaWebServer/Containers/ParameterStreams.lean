import AdaWebServer.Containers.ParameterPieces
import AdaWebServer.Resources.LineReading

/-!
# Parameters of a stream

A stream of parameters is read piece by piece.  Each piece is cut at its last ampersand, and what
is behind it is put in front of the next piece.  A piece without an ampersand is a parameter of its
own, and another one is refused.
-/

namespace AdaWebServer
namespace Containers

open Http2 (Octet Octets Text Exn Positive naturalLast toLower text image)
open Resources (MemoryStream)
open Resources.MemoryStream (Unread)
open Url (decode)

/-- The item of a parameter, as it is stored. -/
def parameterElement (mode : Mode) (parameter : Text) : Element :=
  mode.newElement (decode true (parameter.takeWhile (· ≠ 61)))
    (decode true ((parameter.dropWhile (· ≠ 61)).drop 1))

/-- The list after some parameters have been added. -/
def collected (parameters : List Text) (table : Table) : Table :=
  parameters.foldl (fun table parameter =>
    Protected.left (table.add (decode true (parameter.takeWhile (· ≠ 61)))
      (decode true ((parameter.dropWhile (· ≠ 61)).drop 1)))) table

/-- The message of too many parameters. -/
def manyMessage (maxParameters : Nat) : Text :=
  text "Maximum number of parameters reached: " ++ image maxParameters ++
    text ", see Config.Max_POST_Parameters."

/-- A stream that has not been read, with a body without ends of lines. -/
structure ParameterStream where
  stream : MemoryStream
  body : Octets
  unread : Unread stream body body
  one_line : ∀ octet ∈ body, Table.isLineEnd octet = false

/-- A parameter is longer than the limit. -/
def TooLong (limit : Nat) (body : Text) : Prop :=
  ∃ parameter ∈ addedStrings body, limit < parameter.length

/-- The stream version gives the list that the string version gives, or raises because a parameter
is too long or because there are too many. -/
def StreamsLikeString (maxParameters inputLineSizeLimit : Positive) (table : Table)
    (parameters : ParameterStream) : Prop :=
  ∃ bound, ∀ times, bound ≤ times →
    (∃ result stream,
      table.addStream maxParameters inputLineSizeLimit times parameters.stream =
          .ok (result, stream) ∧
        Table.addString parameters.body table = .ok result ∧
        ¬TooLong inputLineSizeLimit parameters.body ∧
        ¬maxParameters.1 < (addedStrings parameters.body).length) ∨
    (∃ message, table.addStream maxParameters inputLineSizeLimit times parameters.stream =
        .error (.raised (.tooLongParameter message)) ∧
      TooLong inputLineSizeLimit parameters.body) ∨
    ∃ message, table.addStream maxParameters inputLineSizeLimit times parameters.stream =
        .error (.raised (.tooManyParameters message)) ∧
      maxParameters.1 < (addedStrings parameters.body).length

variable {table : Table} {count maxParameters : Nat}

/-! ## Adding parameters -/

theorem left_add (table : Table) (name value : Text) :
    table.added name value = .ok (Protected.left (table.add name value)) ∧
      (Protected.left (table.add name value)).data = table.data ++ [table.newElement name value] ∧
      (Protected.left (table.add name value)).toMode = table.toMode := by
  have opening : ¬(¬table.index.contains (table.normalizeName name) ∧ 1 < 0) := by omega
  rw [Table.added, Table.add, Table.updateInternal, if_neg opening, Table.process]
  dsimp only
  rw [if_pos (.inl rfl)]
  exact ⟨rfl, rfl, rfl⟩

theorem addParameter_eq (parameter : Text) (table : Table) (count : Nat) :
    Table.addParameter maxParameters (count, table) parameter =
      if count + 1 ≤ maxParameters then .ok (count + 1, collected [parameter] table)
      else .error (.raised (.tooManyParameters (manyMessage maxParameters))) := by
  rw [Table.addParameter]
  dsimp only
  rw [(left_add table _ _).1]
  rfl

/-- Parameters are added as long as there are not too many. -/
theorem foldlM_addParameter (parameters : List Text) (table : Table)
    (fits : count ≤ maxParameters) :
    parameters.foldlM (Table.addParameter maxParameters) (count, table) =
      if count + parameters.length ≤ maxParameters then
        .ok (count + parameters.length, collected parameters table)
      else .error (.raised (.tooManyParameters (manyMessage maxParameters))) := by
  induction parameters generalizing table count with
  | nil => exact (if_pos fits).symm
  | cons parameter later ih =>
      have shifted : count + (parameter :: later).length = count + 1 + later.length := by
        rw [List.length_cons]
        omega
      rw [List.foldlM_cons, addParameter_eq, shifted]
      by_cases within : count + 1 ≤ maxParameters
      · rw [if_pos within, Http2.ok_bind, ih _ within]
        rfl
      · rw [if_neg within, if_neg (by omega)]
        rfl

/-- The parameters of a text are added. -/
theorem addInternal_eq (parameters : Text) (table : Table) (fits : count ≤ maxParameters) :
    Table.addInternal maxParameters parameters (count, table) =
      if count + (addedStrings parameters).length ≤ maxParameters then
        .ok (count + (addedStrings parameters).length, collected (addedStrings parameters) table)
      else .error (.raised (.tooManyParameters (manyMessage maxParameters))) :=
  foldlM_addParameter _ table fits

theorem collected_append (parameters more : List Text) (table : Table) :
    collected (parameters ++ more) table = collected more (collected parameters table) :=
  List.foldl_append

/-- The parameters are stored in their order. -/
theorem collected_data (parameters : List Text) (table : Table) :
    (collected parameters table).data =
        table.data ++ parameters.map (parameterElement table.toMode) ∧
      (collected parameters table).toMode = table.toMode := by
  induction parameters generalizing table with
  | nil => exact ⟨(List.append_nil _).symm, rfl⟩
  | cons parameter later ih =>
      obtain ⟨-, data_eq, mode_eq⟩ := left_add table (decode true (parameter.takeWhile (· ≠ 61)))
        (decode true ((parameter.dropWhile (· ≠ 61)).drop 1))
      obtain ⟨later_data, later_mode⟩ := ih (Protected.left (table.add
        (decode true (parameter.takeWhile (· ≠ 61)))
        (decode true ((parameter.dropWhile (· ≠ 61)).drop 1))))
      rw [data_eq, mode_eq] at later_data
      rw [mode_eq] at later_mode
      refine ⟨later_data.trans ?_, later_mode⟩
      rw [List.append_assoc]
      rfl

/-! ## The loop -/

variable {first : Bool} {segment rest before behind carried line : Text} {octet : Octet}

theorem atLastAmp_none (no_ampersand : 38 ∉ line) : Table.atLastAmp line = none :=
  if_neg no_ampersand

theorem atLastAmp_cut (no_ampersand : 38 ∉ behind) :
    Table.atLastAmp (before ++ 38 :: behind) = some (before, behind) := by
  have others : ∀ octet ∈ behind.reverse, decide (octet ≠ 38) = true := by
    intro octet among
    refine decide_eq_true ?_
    rintro rfl
    exact no_ampersand (List.mem_reverse.1 among)
  have reversed : (before ++ 38 :: behind).reverse = behind.reverse ++ 38 :: before.reverse := by
    rw [List.reverse_append, List.reverse_cons, List.append_assoc, List.singleton_append]
  have taken : (before ++ 38 :: behind).reverse.takeWhile (· ≠ 38) = behind.reverse := by
    rw [reversed, List.takeWhile_append_of_pos others, List.takeWhile_cons_of_neg (by decide),
      List.append_nil]
  have front : (before ++ 38 :: behind).length - behind.length - 1 = before.length := by
    rw [List.length_append, List.length_cons]
    omega
  rw [Table.atLastAmp, if_pos (List.mem_append_right _ List.mem_cons_self), taken]
  dsimp only
  rw [List.reverse_reverse, List.length_reverse, front, List.take_left]

/-- What is left of the stream, without ends of lines. -/
structure Leaves (stream : MemoryStream) (content rest : Octets) : Prop where
  unread : Unread stream content rest
  one_line : ∀ octet ∈ rest, Table.isLineEnd octet = false

variable {stream : MemoryStream} {content : Octets} {length : Nat} {wasNotFound : Bool}

/-- The next piece is read. -/
theorem Leaves.read {later : Text} (leaves : Leaves stream content (line ++ later))
    (room : carried.length < length)
    (piece : carried.length + line.length = length ∨
      carried.length + line.length < length ∧ later = []) :
    ∃ next, stream.read (length - carried.length) = .ok (line, next) ∧ Leaves next content later ∧
      line.takeWhile (fun octet => !Table.isLineEnd octet) = line := by
  obtain ⟨next, read_eq, next_unread⟩ := leaves.unread.read (Nat.sub_pos_of_lt room)
  have parts : (line ++ later).take (length - carried.length) = line ∧
      (line ++ later).drop (length - carried.length) = later := by
    obtain full | ⟨short, rfl⟩ := piece
    · have length_eq : length - carried.length = line.length := by omega
      rw [length_eq]
      exact ⟨List.take_left, List.drop_left⟩
    · rw [List.append_nil]
      exact ⟨List.take_of_length_le (by omega), List.drop_eq_nil_of_le (by omega)⟩
  rw [parts.1] at read_eq
  rw [parts.2] at next_unread
  refine ⟨next, read_eq, ⟨next_unread, fun octet among =>
    leaves.one_line octet (List.mem_append_right _ among)⟩, ?_⟩
  refine List.takeWhile_eq_self_iff.2 fun octet among => ?_
  rw [leaves.one_line octet (List.mem_append_left _ among)]
  rfl

/-- A piece with an ampersand is cut. -/
theorem addTurn_cut {later : Text}
    (leaves : Leaves stream content (before ++ 38 :: behind ++ later))
    (room : carried.length < length) (no_ampersand : 38 ∉ behind)
    (piece : carried.length + (before ++ 38 :: behind).length = length ∨
      carried.length + (before ++ 38 :: behind).length < length ∧ later = []) :
    ∃ next, Leaves next content later ∧
      Table.addTurn maxParameters length ⟨carried, wasNotFound, count, table, stream⟩ =
        (Table.addInternal maxParameters (carried ++ before) (count, table) >>= fun state =>
          if carried.length + (before ++ 38 :: behind).length = length then
            .ok (.again ⟨behind, wasNotFound, state.1, state.2, next⟩)
          else Table.addInternal maxParameters behind state >>= fun last =>
            .ok (.leave (last.2, next))) := by
  obtain ⟨next, read_eq, next_leaves, line_eq⟩ := leaves.read room piece
  refine ⟨next, next_leaves, ?_⟩
  rw [Table.addTurn, read_eq, trial, Http2.ok_bind]
  dsimp only
  rw [line_eq, atLastAmp_cut no_ampersand]
  rfl

/-- A piece without an ampersand is added or refused. -/
theorem addTurn_uncut {later : Text} (leaves : Leaves stream content (line ++ later))
    (room : carried.length < length) (no_ampersand : 38 ∉ line)
    (piece : carried.length + line.length = length ∨
      carried.length + line.length < length ∧ later = []) :
    ∃ next, Leaves next content later ∧
      Table.addTurn maxParameters length ⟨carried, wasNotFound, count, table, stream⟩ =
        if wasNotFound ∧ line ≠ [] then
          .error (.raised (.tooLongParameter
            (text "HTTP parameter line too long : " ++ table.uriFormat 64)))
        else Table.addInternal maxParameters (carried ++ line) (count, table) >>= fun state =>
          if carried.length + line.length = length then
            .ok (.again ⟨[], true, state.1, state.2, next⟩)
          else .ok (.leave (state.2, next)) := by
  obtain ⟨next, read_eq, next_leaves, line_eq⟩ := leaves.read room piece
  refine ⟨next, next_leaves, ?_⟩
  rw [Table.addTurn, read_eq, trial, Http2.ok_bind]
  dsimp only
  rw [line_eq, atLastAmp_none no_ampersand]
  rfl

/-- The outcome of the loop: the parameters are added, if there are not too many, before a text is
refused. -/
def Outcome (maxParameters count : Nat) (table : Table) (parameters : List Text) (refused : Bool)
    (result : Trial Failure (Table × MemoryStream)) : Prop :=
  (maxParameters < count + parameters.length →
      result = .error (.raised (.tooManyParameters (manyMessage maxParameters)))) ∧
    (count + parameters.length ≤ maxParameters →
      if refused = true then ∃ message, result = .error (.raised (.tooLongParameter message))
      else ∃ stream, result = .ok (collected parameters table, stream))

variable {more : List Text} {refused : Bool} {pieces : List Piece}

/-- The parameters of a text are added before others. -/
theorem Outcome.add {next : Nat × Table → Trial Failure (Table × MemoryStream)}
    (fits : count ≤ maxParameters)
    (later : count + (addedStrings segment).length ≤ maxParameters →
      Outcome maxParameters (count + (addedStrings segment).length)
        (collected (addedStrings segment) table) more refused
        (next (count + (addedStrings segment).length, collected (addedStrings segment) table))) :
    Outcome maxParameters count table (addedStrings segment ++ more) refused
      (Table.addInternal maxParameters segment (count, table) >>= next) := by
  rw [addInternal_eq segment table fits, Outcome, List.length_append, ← Nat.add_assoc]
  by_cases within : count + (addedStrings segment).length ≤ maxParameters
  · rw [if_pos within, Http2.ok_bind, collected_append]
    exact later within
  · rw [if_neg within]
    exact ⟨fun _ => rfl, fun few => absurd few (by omega)⟩

/-- After the last text nothing is added. -/
theorem Outcome.addLast (fits : count ≤ maxParameters) (stream : MemoryStream) :
    Outcome maxParameters count table (addedStrings segment) false
      (Table.addInternal maxParameters segment (count, table) >>= fun state =>
        .ok (state.2, stream)) := by
  have added : Outcome maxParameters count table (addedStrings segment ++ []) false
      (Table.addInternal maxParameters segment (count, table) >>= fun state =>
        .ok (state.2, stream)) :=
    Outcome.add fits fun within => ⟨fun many => absurd within (not_le.2 many),
      fun _ => ⟨stream, rfl⟩⟩
  rwa [List.append_nil] at added

/-- What a turn decides goes on. -/
def proceed (maxParameters length times : Nat) :
    Turn Table.Adding (Table × MemoryStream) → Trial Failure (Table × MemoryStream)
  | .again next => turns (Table.addTurn maxParameters length) times next
  | .leave result => .ok result

theorem turns_succ (times : Nat) (adding : Table.Adding) :
    turns (Table.addTurn maxParameters length) (times + 1) adding =
      Table.addTurn maxParameters length adding >>= proceed maxParameters length times := by
  rw [turns]
  congr 1
  funext decision
  cases decision <;> rfl

/-- A whole piece without an ampersand is added. -/
theorem turns_full {later : Text} (times : Nat) (leaves : Leaves stream content (line ++ later))
    (room : carried.length < length) (no_ampersand : 38 ∉ line)
    (full : carried.length + line.length = length) :
    ∃ next, Leaves next content later ∧
      turns (Table.addTurn maxParameters length) (times + 1)
        ⟨carried, false, count, table, stream⟩ =
        (Table.addInternal maxParameters (carried ++ line) (count, table) >>= fun state =>
          turns (Table.addTurn maxParameters length) times ⟨[], true, state.1, state.2, next⟩) := by
  obtain ⟨next, next_leaves, turn⟩ := @addTurn_uncut table count maxParameters carried line stream
    content length false later leaves room no_ampersand (.inl full)
  refine ⟨next, next_leaves, ?_⟩
  rw [turns_succ, turn, if_neg (by rintro ⟨⟨⟩, _⟩), bind_assoc]
  simp only [if_pos full]
  rfl

/-- Another piece without an ampersand is refused. -/
theorem turns_refused (times : Nat) (leaves : Leaves stream content rest)
    (room : carried.length < length) (no_ampersand : 38 ∉ rest.take (length - carried.length))
    (some_rest : rest ≠ []) (count : Nat) (table : Table) :
    ∃ message, turns (Table.addTurn maxParameters length) (times + 1)
        ⟨carried, true, count, table, stream⟩ =
      .error (.raised (.tooLongParameter message)) := by
  have some_octets := List.length_pos_iff.2 some_rest
  have taken := @List.length_take _ (length - carried.length) rest
  have some_line : rest.take (length - carried.length) ≠ [] :=
    List.length_pos_iff.1 (by omega)
  have piece : carried.length + (rest.take (length - carried.length)).length = length ∨
      carried.length + (rest.take (length - carried.length)).length < length ∧
        rest.drop (length - carried.length) = [] := by
    obtain enough | short := Nat.le_total (length - carried.length) rest.length
    · exact .inl (by omega)
    · by_cases whole : rest.length = length - carried.length
      · exact .inl (by omega)
      · exact .inr ⟨by omega, List.drop_eq_nil_of_le short⟩
  rw [← List.take_append_drop (length - carried.length) rest] at leaves
  obtain ⟨next, -, turn⟩ := @addTurn_uncut table count maxParameters carried _ stream content length
    true _ leaves room no_ampersand piece
  rw [turns_succ, turn, if_pos ⟨rfl, some_line⟩]
  exact ⟨_, rfl⟩

/-- From a state of the loop on, the parameters of the pieces are added. -/
theorem Cuts.outcome {wasNotFound refused : Bool} {pieces : List Piece}
    {carried rest : Text} {count : Nat} {table : Table} {stream : MemoryStream} {times : Nat}
    (cuts : Cuts length wasNotFound carried rest pieces refused) (room : carried.length < length)
    (leaves : Leaves stream content rest) (fits : count ≤ maxParameters)
    (enough : rest.length + 1 < times) :
    Outcome maxParameters count table (added pieces) refused
      (turns (Table.addTurn maxParameters length) times
        ⟨carried, wasNotFound, count, table, stream⟩) := by
  induction cuts generalizing count table stream times with
  | @ending wasNotFound carried rest inside no_ampersand not_twice =>
      obtain ⟨times, rfl⟩ : ∃ others, times = others + 1 := ⟨times - 1, by omega⟩
      have added_eq : added [.ending (carried ++ rest)] = addedStrings (carried ++ rest) :=
        List.append_nil _
      rw [← List.append_nil rest] at leaves
      obtain ⟨next, -, turn⟩ := @addTurn_uncut table count maxParameters carried rest stream content
        length wasNotFound [] leaves (by omega) no_ampersand (.inr ⟨inside, rfl⟩)
      rw [added_eq, turns_succ, turn, if_neg fun both => both.2 (not_twice both.1), bind_assoc]
      simp only [if_neg inside.ne]
      exact Outcome.addLast fits next
  | @cutEnding wasNotFound carried before behind inside no_ampersand =>
      obtain ⟨times, rfl⟩ : ∃ others, times = others + 1 := ⟨times - 1, by omega⟩
      have added_eq : added [.cut (carried ++ before), .ending behind] =
          addedStrings (carried ++ before) ++ addedStrings behind :=
        congrArg _ (List.append_nil _)
      rw [← List.append_nil (before ++ 38 :: behind)] at leaves
      obtain ⟨next, -, turn⟩ := @addTurn_cut table count maxParameters before behind carried stream
        content length wasNotFound [] leaves room no_ampersand (.inr ⟨inside, rfl⟩)
      rw [added_eq, turns_succ, turn, bind_assoc]
      refine Outcome.add fits fun within => ?_
      rw [if_neg inside.ne, bind_assoc]
      exact Outcome.addLast within next
  | @cut wasNotFound refused carried before behind rest pieces full no_ampersand cuts ih =>
      obtain ⟨times, rfl⟩ : ∃ others, times = others + 1 := ⟨times - 1, by omega⟩
      have parts := @List.length_append _ before (38 :: behind)
      have all := @List.length_append _ (before ++ 38 :: behind) rest
      rw [List.length_cons] at parts
      obtain ⟨next, next_leaves, turn⟩ :=
        @addTurn_cut table count maxParameters before behind carried
        stream content length wasNotFound rest leaves room no_ampersand (.inl full)
      rw [turns_succ, turn, bind_assoc]
      refine Outcome.add fits fun within => ?_
      rw [if_pos full]
      exact ih (by omega) next_leaves within (by omega)
  | @whole refused carried line rest pieces full no_ampersand cuts ih =>
      obtain ⟨times, rfl⟩ : ∃ others, times = others + 1 := ⟨times - 1, by omega⟩
      have all := @List.length_append _ line rest
      obtain ⟨next, next_leaves, ran⟩ := @turns_full table count maxParameters carried line stream
        content length rest times leaves room no_ampersand full
      rw [ran]
      exact Outcome.add fits fun within =>
        ih (Nat.zero_lt_of_lt room) next_leaves within (by omega)
  | @refused carried rest no_ampersand some_rest =>
      obtain ⟨times, rfl⟩ : ∃ others, times = others + 1 := ⟨times - 1, by omega⟩
      exact ⟨fun many => absurd fits (not_le.2 many),
        fun _ => turns_refused times leaves room no_ampersand some_rest count table⟩

/-! ## Streams and strings -/

variable {maximum limit : Positive} {parameters : ParameterStream}

theorem addString_eq (few : (addedStrings segment).length ≤ naturalLast) (table : Table) :
    Table.addString segment table = .ok (collected (addedStrings segment) table) := by
  have fits : 0 + (addedStrings segment).length ≤ naturalLast := by omega
  rw [Table.addString, addInternal_eq segment table (Nat.zero_le _), if_pos fits]
  rfl

theorem length_stream (parameters : ParameterStream) :
    parameters.stream.length = parameters.body.length := by
  obtain ⟨position, stands, -⟩ := parameters.unread.stands
  exact stands.holds.length_eq

theorem leaves_start (parameters : ParameterStream) :
    Leaves parameters.stream parameters.body parameters.body :=
  ⟨parameters.unread, parameters.one_line⟩

theorem addStream_empty (nothing : parameters.body = []) (times : Nat) :
    table.addStream maximum limit times parameters.stream = .ok (table, parameters.stream) := by
  have length_eq := length_stream parameters
  rw [nothing, List.length_nil] at length_eq
  rw [Table.addStream, length_eq, Nat.min_zero]
  rfl

theorem addStream_eq (something : parameters.body ≠ []) (times : Nat) :
    table.addStream maximum limit times parameters.stream =
      turns (Table.addTurn maximum (min limit.1 parameters.body.length)) times
        ⟨[], false, 0, table, parameters.stream⟩ := by
  have some_octets := List.length_pos_iff.2 something
  have some_limit := limit.2.1
  rw [Table.addStream, length_stream, if_neg (by omega)]

/-- What `Add` of a stream does with the pieces of its body. -/
theorem outcome_start (something : parameters.body ≠ [])
    (cuts : Cuts (min limit.1 parameters.body.length) false [] parameters.body pieces refused)
    {times : Nat} (enough : parameters.body.length + 1 < times) :
    Outcome maximum 0 table (added pieces) refused
      (table.addStream maximum limit times parameters.stream) := by
  have some_octets := List.length_pos_iff.2 something
  have some_limit := limit.2.1
  rw [addStream_eq something]
  exact cuts.outcome (by rw [List.length_nil]; omega) (leaves_start parameters)
    (Nat.zero_le _) enough

/-! ## Decoded parameters -/

/-- The name and the value of a parameter, as they are added. -/
def decoded (parameter : Text) : Text × Text :=
  (decode true (parameter.takeWhile (· ≠ 61)), decode true ((parameter.dropWhile (· ≠ 61)).drop 1))

theorem collected_congr {others parameters : List Text}
    (same : parameters.map decoded = others.map decoded) (table : Table) :
    collected parameters table = collected others table := by
  have of_decoded : ∀ parameters : List Text, collected parameters table =
      (parameters.map decoded).foldl
        (fun table pair => Protected.left (table.add pair.1 pair.2)) table := by
    intro parameters
    rw [List.foldl_map]
    rfl
  rw [of_decoded, of_decoded, same]

theorem decode_eq_nil {parameters : Text} : decode true parameters = [] ↔ parameters = [] := by
  constructor
  · intro nothing
    cases parameters with
    | nil => rfl
    | cons octet later =>
        exact absurd nothing (Url.decode_ne_nil true octet later)
  · rintro rfl
    rfl

theorem blank_iff_decoded (parameter : Text) :
    decode true (parameter.takeWhile (· ≠ 61)) = [] ∧
        decode true ((parameter.dropWhile (· ≠ 61)).drop 1) = [] ↔ Blank parameter := by
  rw [decode_eq_nil, decode_eq_nil]
  constructor
  · rintro ⟨no_name, no_value⟩
    cases parameter with
    | nil => exact .inl rfl
    | cons octet later =>
        by_cases equals : octet = 61
        · subst equals
          rw [List.dropWhile_cons_of_neg (by decide), List.drop_one, List.tail_cons] at no_value
          rw [no_value]
          exact .inr rfl
        · rw [List.takeWhile_cons, if_pos (decide_eq_true equals)] at no_name
          cases no_name
  · rintro (rfl | rfl)
    · exact ⟨rfl, rfl⟩
    · exact ⟨rfl, rfl⟩

theorem decoded_blank (parameter : Text) : decoded parameter = decoded [] ↔ Blank parameter := by
  rw [← blank_iff_decoded]
  exact Prod.ext_iff

theorem decoded_weighed (one other : Text) (same : decoded one = decoded other) :
    parameterWeight one = parameterWeight other := by
  have names := congrArg (fun pair : Text × Text => pair.1.length) same
  have values := congrArg (fun pair : Text × Text => pair.2.length) same
  exact congrArg₂ (· + ·) names values

theorem stored_length (mode : Mode) (parameter : Text) :
    (parameterElement mode parameter).name.length = (decoded parameter).1.length ∧
      (parameterElement mode parameter).value = (decoded parameter).2 := by
  refine ⟨?_, rfl⟩
  rw [parameterElement, Mode.newElement]
  dsimp only
  split_ifs
  · exact Http2.toLower_length _
  · rfl

theorem stored_blank (mode : Mode) (parameter : Text) :
    parameterElement mode parameter = parameterElement mode [] ↔ Blank parameter := by
  constructor
  · intro same
    have names := congrArg (fun element : Element => element.name.length) same
    have values := congrArg Element.value same
    simp only [(stored_length mode _).1] at names
    rw [(stored_length mode parameter).2, (stored_length mode []).2] at values
    exact (blank_iff_decoded parameter).1 ⟨List.eq_nil_of_length_eq_zero names, values⟩
  · intro blank
    have same := (decoded_blank parameter).2 blank
    obtain ⟨name_eq, value_eq⟩ := Prod.mk.inj same
    rw [parameterElement, parameterElement, name_eq, value_eq]

theorem stored_weighed (mode : Mode) (one other : Text)
    (same : parameterElement mode one = parameterElement mode other) :
    parameterWeight one = parameterWeight other := by
  have names := congrArg (fun element : Element => element.name.length) same
  have values := congrArg (fun element : Element => element.value.length) same
  simp only [(stored_length mode _).1] at names
  simp only [(stored_length mode _).2] at values
  exact congrArg₂ (· + ·) names values

/-! ## Streams like strings -/

/-- The pieces of a body fit it.  If they have too many parameters, so has the body; if one of them
is refused, a parameter of the body is too long; and otherwise no parameter is too long, and the
pieces give those of the body. -/
def PiecesFit (maxParameters limit : Nat) (body : Text) (pieces : List Piece)
    (refused : Bool) : Prop :=
  if maxParameters < (added pieces).length then maxParameters < (addedStrings body).length
  else if refused = true then TooLong limit body
  else ¬TooLong limit body ∧ (∀ piece ∈ pieces.tail, ¬piece.Marked) ∧ Keeps .even (unmarked pieces)

/-- The body is empty, or its pieces fit it. -/
def ReadsFit (maxParameters limit : Nat) (body : Text) : Prop :=
  body = [] ∨ ∃ pieces refused, Cuts (min limit body.length) false [] body pieces refused ∧
    PiecesFit maxParameters limit body pieces refused

theorem mem_length_le {parameter : Text} (fitting : ¬TooLong limit segment)
    (among : parameter ∈ addedStrings segment) : parameter.length ≤ min limit.1 segment.length := by
  refine le_min (not_lt.1 fun long => fitting ⟨parameter, among, long⟩) ?_
  exact length_le_of_mem_addedStrings among

theorem min_pos (something : parameters.body ≠ []) : 0 < min limit.1 parameters.body.length :=
  lt_min limit.2.1 (List.length_pos_iff.2 something)

/-- A stream whose pieces fit is read like a string. -/
theorem PiecesFit.streams (something : parameters.body ≠ [])
    (cuts : Cuts (min limit.1 parameters.body.length) false [] parameters.body pieces refused)
    (fit : PiecesFit maximum limit parameters.body pieces refused) :
    StreamsLikeString maximum limit table parameters := by
  refine ⟨parameters.body.length + 2, fun times enough => ?_⟩
  obtain ⟨many, few⟩ := @outcome_start table refused pieces maximum limit parameters
    something cuts times enough
  rw [Nat.zero_add] at many few
  rw [PiecesFit] at fit
  split_ifs at fit with above is_refused
  · exact .inr (.inr ⟨_, many above, fit⟩)
  · have raised := few (not_lt.1 above)
    rw [if_pos is_refused] at raised
    obtain ⟨message, raised⟩ := raised
    exact .inr (.inl ⟨message, raised, fit⟩)
  · have returned := few (not_lt.1 above)
    rw [if_neg is_refused] at returned
    obtain ⟨stream, returned⟩ := returned
    obtain ⟨fitting, kept⟩ := fit
    obtain rfl : refused = false := Bool.eq_false_iff.2 is_refused
    have same := (cuts.map_added_iff decoded_blank decoded_weighed (min_pos something)
      (fun _ => mem_length_le fitting) (cuts.unsplit_of_keeps kept.2)).2 kept
    have lengths := congrArg List.length same
    rw [List.length_map, List.length_map] at lengths
    have within := maximum.2.2
    refine .inl ⟨_, stream, returned, ?_, fitting, by omega⟩
    rw [addString_eq (by omega), collected_congr same]

/-- What is read like a string has pieces that fit. -/
theorem StreamsLikeString.piecesFit (streams : StreamsLikeString maximum limit table parameters)
    (something : parameters.body ≠ [])
    (cuts : Cuts (min limit.1 parameters.body.length) false [] parameters.body pieces refused)
    (unsplit : ¬SplitsMarked limit parameters.body) :
    PiecesFit maximum limit parameters.body pieces refused := by
  have unsplit : ¬SplitsMarked (min limit.1 parameters.body.length) parameters.body := by
    rintro ⟨mark, longer, absent⟩
    have length_eq : min limit.1 parameters.body.length = limit.1 := by omega
    rw [length_eq] at longer absent
    exact unsplit ⟨mark, longer, absent⟩
  obtain ⟨bound, streams⟩ := streams
  obtain ⟨many, few⟩ := @outcome_start table refused pieces maximum limit parameters something cuts
    (bound + parameters.body.length + 2) (by omega)
  rw [Nat.zero_add] at many few
  rw [PiecesFit]
  obtain ⟨after, stream, returned, added_eq, fitting, enough⟩ | ⟨message, raised, long⟩ |
      ⟨message, raised, above⟩ := streams (bound + parameters.body.length + 2) (by omega)
  · have within : ¬maximum.1 < (added pieces).length := by
      intro above
      cases returned.symm.trans (many above)
    have result := few (not_lt.1 within)
    rw [if_neg within]
    split_ifs at result with is_refused
    · obtain ⟨message, raised⟩ := result
      cases returned.symm.trans raised
    · obtain rfl : refused = false := Bool.eq_false_iff.2 is_refused
      obtain ⟨other, returned_again⟩ := result
      obtain ⟨after_eq, -⟩ := Prod.mk.inj (Except.ok.inj (returned.symm.trans returned_again))
      rw [addString_eq ((not_lt.1 enough).trans maximum.2.2)] at added_eq
      have data_eq := congrArg Table.data ((Except.ok.inj added_eq).trans after_eq)
      rw [(collected_data _ _).1, (collected_data _ _).1, List.append_right_inj] at data_eq
      exact ⟨fitting, (cuts.map_added_iff (stored_blank _) (stored_weighed _) (min_pos something)
        (fun _ => mem_length_le fitting) unsplit).1 data_eq.symm⟩
  · have within : ¬maximum.1 < (added pieces).length := by
      intro above
      cases raised.symm.trans (many above)
    have result := few (not_lt.1 within)
    rw [if_neg within]
    split_ifs at result with is_refused
    · rw [if_pos is_refused]
      exact long
    · obtain ⟨stream, returned⟩ := result
      cases raised.symm.trans returned
  · have exceeds : maximum.1 < (added pieces).length := by
      by_contra within
      have result := few (not_lt.1 within)
      split_ifs at result with is_refused
      · obtain ⟨_, refusal⟩ := result
        cases raised.symm.trans refusal
      · obtain ⟨stream, returned⟩ := result
        cases raised.symm.trans returned
    rw [if_pos exceeds]
    exact above

/-- The stream version of `Add` does what the string version does, or raises as it should, exactly
if the pieces that are read fit the body.  (A body that begins with a question mark and a parameter
that takes more than the first piece is another matter: the parameter is added in two parts.) -/
theorem streamsLikeString_iff (maximum limit : Positive) (table : Table)
    (parameters : ParameterStream) :
    (ReadsFit maximum limit parameters.body → StreamsLikeString maximum limit table parameters) ∧
      (¬SplitsMarked limit parameters.body →
        (StreamsLikeString maximum limit table parameters ↔
          ReadsFit maximum limit parameters.body)) := by
  have enough : ReadsFit maximum limit parameters.body →
      StreamsLikeString maximum limit table parameters := by
    intro fit
    by_cases nothing : parameters.body = []
    · refine ⟨0, fun times _ => .inl ⟨table, parameters.stream, addStream_empty nothing times, ?_⟩⟩
      rw [nothing]
      refine ⟨rfl, ?_, Nat.not_lt_zero _⟩
      rintro ⟨parameter, among, -⟩
      cases among
    · obtain ⟨pieces, refused, cuts, fit⟩ := fit.resolve_left nothing
      exact fit.streams nothing cuts
  refine ⟨enough, fun unsplit => ⟨fun streams => ?_, enough⟩⟩
  by_cases nothing : parameters.body = []
  · exact .inl nothing
  · obtain ⟨pieces, refused, cuts⟩ := exists_cuts false
      (show ([] : Text).length < min limit.1 parameters.body.length from min_pos nothing)
      parameters.body
    exact .inr ⟨pieces, refused, cuts, streams.piecesFit nothing cuts unsplit⟩

/-- A stream to which a body has been appended. -/
def bodyStream (body : Octets) (something : body ≠ [])
    (one_line : ∀ octet ∈ body, Table.isLineEnd octet = false) : ParameterStream where
  stream := MemoryStream.create.append 256 1024 body false
  body
  unread := by
    have holds := MemoryStream.stands_create.holds.append 256 1024 body false (fun _ => rfl)
      (.inr (.inl rfl))
    exact ⟨⟨0, holds.stands something, rfl⟩, fun nothing => absurd nothing something⟩
  one_line

theorem limits_within : (1 ≤ 4 ∧ 4 ≤ naturalLast) ∧ 1 ≤ 100 ∧ 100 ≤ naturalLast := by decide

theorem empty_between :
    text "a&&b" ≠ [] ∧ ∀ octet ∈ text "a&&b", Table.isLineEnd octet = false := by decide +kernel

theorem long_pair :
    text "ab=cd&e" ≠ [] ∧ ∀ octet ∈ text "ab=cd&e", Table.isLineEnd octet = false := by
      decide +kernel

/-- A parameter that is empty is lost in front of the last ampersand, and a pair that is longer
than the limit is added in two parts. -/
theorem streams_differ :
    ¬StreamsLikeString ⟨100, limits_within.2⟩ ⟨100, limits_within.2⟩ {}
        (bodyStream (text "a&&b") empty_between.1 empty_between.2) ∧
      ¬StreamsLikeString ⟨100, limits_within.2⟩ ⟨4, limits_within.1⟩ {}
        (bodyStream (text "ab=cd&e") long_pair.1 long_pair.2) := by
  constructor
  · intro streams
    have cuts : Cuts 4 false [] (text "a&" ++ 38 :: text "b" ++ [])
        [.cut ([] ++ text "a&"), .ending (text "b" ++ [])] false :=
      .cut (by decide +kernel) (by decide +kernel)
        (.ending (by decide +kernel) List.not_mem_nil (by rintro ⟨⟩))
    have fit := streams.piecesFit empty_between.1 cuts (by decide +kernel)
    rw [PiecesFit, if_neg (by decide +kernel), if_neg (by decide)] at fit
    exact fit.2.2.1 (by decide +kernel)
  · intro streams
    have cuts : Cuts 4 false [] (text "ab=c" ++ (text "d" ++ 38 :: text "e"))
        [.whole ([] ++ text "ab=c"), .cut ([] ++ text "d"), .ending (text "e")] false :=
      .whole (by decide +kernel) (by decide +kernel)
        (.cutEnding (by decide +kernel) (by decide +kernel))
    have fit := streams.piecesFit long_pair.1 cuts (by decide +kernel)
    rw [PiecesFit, if_neg (by decide +kernel), if_neg (by decide)] at fit
    exact fit.1 ⟨text "ab=cd", by decide +kernel, by decide +kernel⟩

end Containers
end AdaWebServer

import AdaWebServer.Foundations.Execution
import AdaWebServer.Resources.MemoryAppend

/-!
# Runs of operations on a memory stream

What a run of operations gives is compared with a content and a position in it.  At the end of the
content the stream forgets its position or stands behind the last array, so data that are appended then
are not read, and a position that was set there cannot be read from.
-/

namespace AdaWebServer
namespace Resources

open Http2

/-- An operation on a memory stream. -/
inductive StreamCall where
  | append (value : Octets) (trim : Bool)
  | appendAccess (data : Octets)
  | read (room : Nat)
  | setIndex (target : Nat)
  | reset
  | endOfFile
  | size
  deriving DecidableEq

/-- What an operation gives. -/
inductive Observation where
  | done
  | data (octets : Octets)
  | ended (finished : Bool)
  | count (octets : Nat)
  | raised
  deriving DecidableEq

/-- A content and the number of its octets in front of the position. -/
structure Content where
  octets : Octets := []
  position : Nat := 0
  deriving DecidableEq

/-- What an operation should give and do. -/
def Content.specify (content : Content) : StreamCall → Observation × Content
  | .append value _ => (.done, { content with octets := content.octets ++ value })
  | .appendAccess data => (.done, { content with octets := content.octets ++ data })
  | .read room =>
      let data := (content.octets.drop content.position).take room
      (.data data, { content with position := content.position + data.length })
  | .setIndex target =>
      (.done, { content with
        position := if 1 ≤ target ∧ target ≤ content.octets.length then target - 1
          else content.octets.length })
  | .reset => (.done, { content with position := 0 })
  | .endOfFile => (.ended (content.octets.length ≤ content.position), content)
  | .size => (.count content.octets.length, content)

namespace MemoryStream

/-- An operation is performed on a stream with blocks of the given lengths. -/
def perform (firstBlockLength nextBlockLength : Nat) (stream : MemoryStream) :
    StreamCall → Observation × MemoryStream
  | .append value trim => (.done, stream.append firstBlockLength nextBlockLength value trim)
  | .appendAccess data => (.done, stream.appendAccess data)
  | .read room =>
      match stream.read room with
      | .ok (data, next) => (.data data, next)
      | .error _ => (.raised, stream)
  | .setIndex target =>
      match stream.setIndex target with
      | .ok next => (.done, next)
      | .error _ => (.raised, stream)
  | .reset => (.done, stream.reset)
  | .endOfFile => (.ended stream.endOfFile, stream)
  | .size => (.count stream.length, stream)

/-- Nothing is appended at the end of a content, no position is set in a stream without content, and
octets are read into a buffer, unless the end has been read. -/
def Guard (stream : MemoryStream) : StreamCall → Prop
  | .append value _ => value = [] ∨ stream.length = 0 ∨ stream.endOfFile = false
  | .appendAccess data => data = [] ∨ stream.length = 0 ∨ stream.endOfFile = false
  | .read room => stream.current = [] ∨ 0 < room ∧ stream.endOfFile = false
  | .setIndex _ => stream.length ≠ 0
  | _ => True

instance (stream : MemoryStream) (call : StreamCall) : Decidable (stream.Guard call) :=
  match call with
  | .append value _ =>
      inferInstanceAs (Decidable (value = [] ∨ stream.length = 0 ∨ stream.endOfFile = false))
  | .appendAccess data =>
      inferInstanceAs (Decidable (data = [] ∨ stream.length = 0 ∨ stream.endOfFile = false))
  | .read room =>
      inferInstanceAs (Decidable (stream.current = [] ∨ 0 < room ∧ stream.endOfFile = false))
  | .setIndex _ => inferInstanceAs (Decidable (stream.length ≠ 0))
  | .reset => inferInstanceAs (Decidable True)
  | .endOfFile => inferInstanceAs (Decidable True)
  | .size => inferInstanceAs (Decidable True)

/-- The stream holds the content at its position, and starts at the front if it is empty. -/
structure Stands (stream : MemoryStream) (content : Content) : Prop where
  holds : Holds stream content.octets content.position
  start : stream.blocks = [] → stream.currentOffset = 0

variable {stream : MemoryStream} {content : Content}

theorem stands_create : Stands .create ⟨[], 0⟩ :=
  ⟨⟨⟨nofun, fun blocks_ne => absurd rfl blocks_ne, nofun⟩, rfl, rfl, List.suffix_rfl, trivial, le_rfl,
    rfl⟩, fun _ => rfl⟩

theorem Holds.blocks_nil_iff {octets : Octets} {position : Nat}
    (holds : Holds stream octets position) : stream.blocks = [] ↔ stream.length = 0 := by
  rw [holds.length_eq, ← holds.content_eq]
  cases blocks_eq : stream.blocks with
  | nil => exact iff_of_true rfl rfl
  | cons block later =>
      have filled := holds.filled
      rw [blocks_eq] at filled
      have nonempty := filled.blockData_nonempty
      refine iff_of_false (List.cons_ne_nil _ _) ?_
      rw [stored, List.length_append]
      omega

theorem Stands.before_end (stands : Stands stream content) (unfinished : stream.endOfFile = false) :
    content.position < content.octets.length := by
  by_contra finished
  rw [stands.holds.endOfFile_iff.2 (not_lt.1 finished)] at unfinished
  cases unfinished

/-- Where octets are held the stream has blocks. -/
theorem Holds.stands {next : MemoryStream} {octets : Octets} {position : Nat}
    (holds : Holds next octets position) (something : octets ≠ []) :
    Stands next ⟨octets, position⟩ where
  holds := holds
  start blocks_nil := by
    rw [holds.blocks_nil_iff, holds.length_eq, List.length_eq_zero_iff] at blocks_nil
    exact absurd blocks_nil something

/-- An index that is not in the content leads to the end. -/
theorem Holds.setIndex_outside {octets : Octets} {position target : Nat}
    (holds : Holds stream octets position) (something : stream.length ≠ 0)
    (outside : target < 1 ∨ octets.length < target) :
    ∃ next, stream.setIndex target = .ok next ∧ Holds next octets octets.length := by
  have blocks_ne := mt holds.blocks_nil_iff.1 something
  have beyond : stream.setIndex target = stream.setIndex (octets.length + 1) := by
    rw [setIndex, setIndex, holds.length_eq, if_pos outside, if_pos (.inr (Nat.lt_succ_self _))]
  have last_eq := List.getLast?_eq_some_getLast blocks_ne
  have moved : ∃ next, stream.setIndex (octets.length + 1) = .ok next := by
    rw [setIndex, holds.length_eq, if_pos (.inr (Nat.lt_succ_self _)), last_eq]
    exact ⟨_, rfl⟩
  obtain ⟨next, next_eq⟩ := moved
  exact ⟨next, beyond.trans next_eq, holds.setIndex_beyond le_rfl next_eq⟩

/-- A position in the content is set, or the one behind it. -/
theorem Stands.setIndex (stands : Stands stream content) (target : Nat)
    (something : stream.length ≠ 0) :
    ∃ next, stream.setIndex target = .ok next ∧
      Stands next (content.specify (.setIndex target)).2 := by
  have octets_ne : content.octets ≠ [] := by
    rw [← List.length_pos_iff, ← stands.holds.length_eq]
    omega
  rw [Content.specify]
  by_cases within : 1 ≤ target ∧ target ≤ content.octets.length
  · obtain ⟨before, rfl⟩ : ∃ before, target = before + 1 := ⟨target - 1, by omega⟩
    have before_end : before < content.octets.length := by omega
    obtain ⟨next, next_eq, holds⟩ := stands.holds.setIndex_within before_end
    rw [if_pos within]
    exact ⟨next, next_eq, holds.stands octets_ne⟩
  · have outside : target < 1 ∨ content.octets.length < target := by omega
    obtain ⟨next, next_eq, holds⟩ := stands.holds.setIndex_outside something outside
    rw [if_neg within]
    exact ⟨next, next_eq, holds.stands octets_ne⟩

/-- Octets are read from the position on. -/
theorem Stands.read (stands : Stands stream content) (room : Nat)
    (sound : stream.current = [] ∨ 0 < room ∧ stream.endOfFile = false) :
    ∃ next, stream.read room =
        .ok ((content.octets.drop content.position).take room, next) ∧
      Stands next (content.specify (.read room)).2 := by
  rw [Content.specify]
  obtain current_nil | ⟨positive, unfinished⟩ := sound
  · have remaining := stands.holds.remaining
    rw [current_nil, stored, List.drop_nil] at remaining
    refine ⟨stream, ?_, ?_⟩
    · rw [MemoryStream.read, current_nil, readBlocks, ← remaining, List.take_nil, ← current_nil]
      rfl
    · dsimp only
      rw [← remaining, List.take_nil]
      exact stands
  · have before_end := stands.before_end unfinished
    obtain ⟨next, next_eq, holds⟩ := stands.holds.read_within before_end positive
    have octets_ne : content.octets ≠ [] := List.length_pos_iff.1 (Nat.zero_lt_of_lt before_end)
    exact ⟨next, next_eq, holds.stands octets_ne⟩

/-- Appended data leave the stream in front of octets, if there are any. -/
theorem Stands.appended {next : MemoryStream} {value : Octets} (stands : Stands stream content)
    (holds : Holds next (content.octets ++ value) content.position)
    (unchanged : content.octets ++ value = [] → next.currentOffset = stream.currentOffset) :
    Stands next { content with octets := content.octets ++ value } where
  holds := holds
  start blocks_nil := by
    rw [holds.blocks_nil_iff, holds.length_eq, List.length_eq_zero_iff] at blocks_nil
    rw [unchanged blocks_nil]
    refine stands.start (stands.holds.blocks_nil_iff.2 ?_)
    rw [stands.holds.length_eq, (List.append_eq_nil_iff.1 blocks_nil).1]
    rfl

/-- An operation gives what it should. -/
theorem Stands.perform (stands : Stands stream content) (firstBlockLength nextBlockLength : Nat)
    {call : StreamCall} (sound : stream.Guard call) :
    (stream.perform firstBlockLength nextBlockLength call).1 = (content.specify call).1 ∧
      Stands (stream.perform firstBlockLength nextBlockLength call).2 (content.specify call).2 := by
  have possible : ∀ {value : Octets},
      value = [] ∨ stream.length = 0 ∨ stream.endOfFile = false →
        value = [] ∨ stream.blocks = [] ∨ content.position < content.octets.length :=
    fun sound => sound.imp_right fun either =>
      either.imp stands.holds.blocks_nil_iff.2 stands.before_end
  cases call with
  | append value trim =>
      refine ⟨rfl, stands.appended (stands.holds.append firstBlockLength nextBlockLength value trim
        stands.start (possible sound)) fun nothing => ?_⟩
      show (stream.append firstBlockLength nextBlockLength value trim).currentOffset = _
      rw [MemoryStream.append, if_pos (List.append_eq_nil_iff.1 nothing).2]
      split_ifs <;> rfl
  | appendAccess data =>
      refine ⟨rfl, stands.appended (stands.holds.appendAccess data (possible sound))
        fun nothing => ?_⟩
      show (stream.appendAccess data).currentOffset = _
      rw [MemoryStream.appendAccess, if_pos (List.append_eq_nil_iff.1 nothing).2]
  | read room =>
      obtain ⟨next, next_eq, next_stands⟩ := stands.read room sound
      rw [MemoryStream.perform, next_eq]
      exact ⟨rfl, next_stands⟩
  | setIndex target =>
      obtain ⟨next, next_eq, next_stands⟩ := stands.setIndex target sound
      rw [MemoryStream.perform, next_eq]
      exact ⟨rfl, next_stands⟩
  | reset => exact ⟨rfl, stands.holds.reset, fun _ => rfl⟩
  | endOfFile =>
      refine ⟨congrArg Observation.ended ?_, stands⟩
      rw [← Bool.decide_coe stream.endOfFile]
      exact decide_eq_decide.2 stands.holds.endOfFile_iff
  | size => exact ⟨congrArg Observation.count stands.holds.length_eq, stands⟩

end MemoryStream

/-- A stream with the content that it should have, what operations gave and what they should give. -/
structure StreamRun where
  stream : MemoryStream := .create
  content : Content := {}
  observed : List Observation := []
  expected : List Observation := []

namespace StreamRun

/-- An operation is performed. -/
def perform (firstBlockLength nextBlockLength : Nat) (state : StreamRun) (call : StreamCall) :
    StreamRun where
  stream := (state.stream.perform firstBlockLength nextBlockLength call).2
  content := (state.content.specify call).2
  observed := state.observed ++ [(state.stream.perform firstBlockLength nextBlockLength call).1]
  expected := state.expected ++ [(state.content.specify call).1]

/-- Any operations, one after the other. -/
def Step (firstBlockLength nextBlockLength : Nat) : StreamRun → StreamCall → StreamRun → Prop :=
  Execution.Performs (fun _ _ => True) (perform firstBlockLength nextBlockLength)

/-- The operations that meet the condition. -/
def GuardedStep (firstBlockLength nextBlockLength : Nat) :
    StreamRun → StreamCall → StreamRun → Prop :=
  Execution.Performs (fun state call => state.stream.Guard call)
    (perform firstBlockLength nextBlockLength)

/-- In every run of operations that meet the condition, on a stream with blocks of any lengths, each
operation gives what it should for the content that has been appended. -/
theorem observed_of_run {firstBlockLength nextBlockLength : Nat} {calls : List StreamCall}
    {state : StreamRun}
    (run : Execution.Run (GuardedStep firstBlockLength nextBlockLength) {} calls state) :
    state.observed = state.expected := by
  have stands : state.stream.Stands state.content ∧ state.observed = state.expected := by
    refine run.invariant
      (fun state => state.stream.Stands state.content ∧ state.observed = state.expected) ?_ ?_
    · exact ⟨MemoryStream.stands_create, rfl⟩
    · rintro before after call ⟨stands, same⟩ ⟨sound, rfl⟩
      obtain ⟨observation_eq, next_stands⟩ :=
        stands.perform firstBlockLength nextBlockLength sound
      exact ⟨next_stands, by rw [perform, same, observation_eq]⟩
  exact stands.2

/-- Five octets in blocks of two and three are read in parts, to the end and from an index. -/
theorem observed_two_blocks :
    ∃ state, Execution.Run (GuardedStep 2 3) {} [.append [1] false, .append [2, 3, 4, 5] false,
      .read 3, .endOfFile, .read 7, .endOfFile, .setIndex 4, .read 1, .reset, .read 2, .size] state ∧
      state.observed = state.expected := by
  have run : Execution.Run (GuardedStep 2 3) {} [.append [1] false, .append [2, 3, 4, 5] false,
      .read 3, .endOfFile, .read 7, .endOfFile, .setIndex 4, .read 1, .reset, .read 2, .size] _ :=
    Execution.run_of_allPossible (by decide +kernel)
  exact ⟨_, run, observed_of_run run⟩

/-- What is appended after the end has been read is not found. -/
theorem appended_at_end_lost :
    ¬∀ (firstBlockLength nextBlockLength : Nat) (calls : List StreamCall) (state : StreamRun),
      Execution.Run (Step firstBlockLength nextBlockLength) {} calls state →
        state.observed = state.expected := by
  intro all
  have run : Execution.Run (Step 256 1024) {}
      [.append [1] false, .read 1, .append [2] false, .endOfFile] _ :=
    Execution.run_of_allPossible (by decide +kernel)
  have same := all 256 1024 _ _ run
  revert same
  decide +kernel

end StreamRun
end Resources
end AdaWebServer

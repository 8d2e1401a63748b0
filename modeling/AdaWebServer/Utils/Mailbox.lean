import AdaWebServer.Foundations.Execution
import AdaWebServer.Foundations.Ring
import AdaWebServer.Http2.Basic

/-!
# The mailbox

A mailbox is a ring buffer in a protected object.  Its entries are open while there is room for a message
or a message is there, and its indexes are natural numbers that are increased before they are compared
with the size of the mailbox.
-/

namespace AdaWebServer
namespace Utils

open Http2 (Exn Positive natural naturalLast)

/-- `Mailbox`, whose elements have no value until a message is stored. -/
structure Mailbox (Message : Type) where
  buffer : Nat → Option Message := fun _ => none
  currentSize : Nat := 0
  current : Nat := 0
  last : Nat := 0

namespace Mailbox

variable {Message : Type}

/-- An index is increased, and starts again behind the end. -/
def increase (maxSize : Positive) (index : Nat) : Except Exn Nat := do
  let next ← natural (index + 1)
  pure (if maxSize < next then 1 else next)

/-- `Add`, once its barrier is open. -/
def add (maxSize : Positive) (message : Message) : EStateM Exn (Mailbox Message) Unit := fun mailbox =>
  match natural (mailbox.currentSize + 1) with
  | .error exn => .error exn mailbox
  | .ok currentSize =>
      match increase maxSize mailbox.current with
      | .error exn => .error exn { mailbox with currentSize }
      | .ok current =>
          .ok () { mailbox with
            currentSize, current, buffer := Function.update mailbox.buffer current (some message) }

/-- The entry `Get`, once its barrier is open. -/
def get (maxSize : Positive) : EStateM Exn (Mailbox Message) (Option Message) := fun mailbox =>
  let currentSize := mailbox.currentSize - 1
  match increase maxSize mailbox.last with
  | .error exn => .error exn { mailbox with currentSize }
  | .ok last => .ok (mailbox.buffer last) { mailbox with currentSize, last }

/-- The procedure `Get`, which does not wait. -/
def tryGet (maxSize : Positive) : EStateM Exn (Mailbox Message) (Option (Option Message)) :=
  fun mailbox =>
    if 0 < mailbox.currentSize then
      match get maxSize mailbox with
      | .ok message next => .ok (some message) next
      | .error exn next => .error exn next
    else .ok none mailbox

/-- `Size`. -/
def size (mailbox : Mailbox Message) : Nat := mailbox.currentSize

end Mailbox

/-- A call of one of the tasks. -/
inductive MailboxCall (Message : Type) where
  | add (message : Message)
  | get
  | tryGet

/-- A mailbox with the messages that have been accepted and what has been returned. -/
structure MailboxRun (Message : Type) where
  mailbox : Mailbox Message := {}
  accepted : List Message := []
  returned : List (Option Message) := []

namespace MailboxRun

variable {Message : Type}

/-- The barrier of the entry that is called is open. -/
def Open (maxSize : Positive) (state : MailboxRun Message) : MailboxCall Message → Prop
  | .add _ => state.mailbox.currentSize < maxSize
  | .get => 0 < state.mailbox.currentSize
  | .tryGet => True

/-- What a call does; an exception goes to the caller, and the mailbox stays as it was left. -/
def perform (maxSize : Positive) (state : MailboxRun Message) :
    MailboxCall Message → MailboxRun Message
  | .add message =>
      match state.mailbox.add maxSize message with
      | .ok () mailbox => { state with mailbox, accepted := state.accepted ++ [message] }
      | .error _ mailbox => { state with mailbox }
  | .get =>
      match state.mailbox.get maxSize with
      | .ok message mailbox => { state with mailbox, returned := state.returned ++ [message] }
      | .error _ mailbox => { state with mailbox }
  | .tryGet =>
      match state.mailbox.tryGet maxSize with
      | .ok (some message) mailbox => { state with mailbox, returned := state.returned ++ [message] }
      | .ok none mailbox => { state with mailbox }
      | .error _ mailbox => { state with mailbox }

/-- The calls of any tasks, one after the other, as the protected object serves them. -/
def Step (maxSize : Positive) :
    MailboxRun Message → MailboxCall Message → MailboxRun Message → Prop :=
  Execution.Performs (Open maxSize) (perform maxSize)

/-- The messages that have been accepted are, in order, those that have been returned and those that
the ring still holds. -/
structure Fifo (maxSize : Positive) (state : MailboxRun Message) : Prop where
  accepted_eq : state.accepted.map some = state.returned ++
    Ring.stored state.mailbox.buffer maxSize state.mailbox.last state.mailbox.size
  size_le : state.mailbox.size ≤ maxSize
  last_le : state.mailbox.last ≤ maxSize
  current_eq : state.mailbox.current =
    Ring.ahead maxSize state.mailbox.last state.mailbox.size

/-- Every run of calls on a mailbox of the given size is first in, first out. -/
def IsFifo (Message : Type) (maxSize : Positive) : Prop :=
  ∀ (calls : List (MailboxCall Message)) (state : MailboxRun Message),
    Execution.Run (Step maxSize) {} calls state → state.Fifo maxSize

variable {maxSize : Positive} {state next : MailboxRun Message}

theorem increase_ok {index : Nat} (within : index ≤ maxSize) (small : index < naturalLast) :
    Mailbox.increase maxSize index = .ok (Ring.ahead maxSize index 1) := by
  have positive := maxSize.2.1
  rw [Mailbox.increase, Http2.natural_of_le (Nat.succ_le_of_lt small), Http2.ok_bind,
    Http2.pure_eq_ok, Ring.ahead]
  split_ifs <;> first | rfl | omega | (congr 1; omega)

/-- `Add` stores its message behind the others. -/
theorem Fifo.add (fifo : state.Fifo maxSize) (small : maxSize < naturalLast)
    (room : state.mailbox.currentSize < maxSize) (message : Message) :
    (state.perform maxSize (.add message)).Fifo maxSize := by
  obtain ⟨accepted_eq, size_le, last_le, current_eq⟩ := fifo
  have current_le : state.mailbox.current ≤ maxSize := by
    rw [current_eq]
    exact Ring.ahead_le last_le size_le
  have counted : natural (state.mailbox.currentSize + 1) = .ok (state.mailbox.currentSize + 1) :=
    Http2.natural_of_le (by omega)
  have indexed := increase_ok current_le (Nat.lt_of_le_of_lt current_le small)
  have next_current : Ring.ahead maxSize state.mailbox.current 1 =
      Ring.ahead maxSize state.mailbox.last (state.mailbox.currentSize + 1) := by
    rw [current_eq]
    exact Ring.ahead_ahead state.mailbox.currentSize last_le room
  simp only [perform, Mailbox.add, counted, indexed, next_current]
  refine ⟨?_, Nat.succ_le_of_lt room, last_le, rfl⟩
  dsimp only [Mailbox.size] at accepted_eq ⊢
  rw [Ring.stored_add _ _ room, List.map_append, accepted_eq, List.append_assoc]
  rfl

/-- `Get` returns the message that has been there for the longest time. -/
theorem Fifo.get (fifo : state.Fifo maxSize) (small : maxSize < naturalLast)
    (waiting : 0 < state.mailbox.currentSize) : (state.perform maxSize .get).Fifo maxSize := by
  obtain ⟨accepted_eq, size_le, last_le, current_eq⟩ := fifo
  obtain ⟨count, count_eq⟩ : ∃ count, state.mailbox.currentSize = count + 1 :=
    ⟨state.mailbox.currentSize - 1, by omega⟩
  dsimp only [Mailbox.size] at accepted_eq size_le current_eq
  rw [count_eq] at accepted_eq size_le current_eq
  have room : count < maxSize := Nat.lt_of_succ_le size_le
  have indexed := increase_ok last_le (Nat.lt_of_le_of_lt last_le small)
  simp only [perform, Mailbox.get, indexed]
  refine ⟨?_, ?_, Ring.ahead_le last_le (Nat.lt_of_le_of_lt (Nat.zero_le _) room), ?_⟩
  · dsimp only [Mailbox.size]
    rw [count_eq, accepted_eq, Nat.add_sub_cancel, Ring.stored_take _ last_le room,
      List.append_assoc]
    rfl
  · dsimp only [Mailbox.size]
    omega
  · dsimp only [Mailbox.size]
    rw [current_eq, count_eq, Nat.add_sub_cancel, Ring.ahead_one_ahead last_le room]

/-- The procedure `Get` does what the entry does when a message is there. -/
theorem perform_tryGet (maxSize : Positive) (state : MailboxRun Message) :
    state.perform maxSize .tryGet =
      if 0 < state.mailbox.currentSize then state.perform maxSize .get else state := by
  by_cases waiting : 0 < state.mailbox.currentSize
  · simp only [perform, Mailbox.tryGet, if_pos waiting]
    cases state.mailbox.get maxSize <;> rfl
  · simp only [perform, Mailbox.tryGet, if_neg waiting]

/-- Every call keeps the order of the messages. -/
theorem Fifo.step {call : MailboxCall Message} (small : maxSize < naturalLast)
    (fifo : state.Fifo maxSize) (step : Step maxSize state call next) : next.Fifo maxSize := by
  obtain ⟨barrier, rfl⟩ := step
  cases call with
  | add message => exact fifo.add small barrier message
  | get => exact fifo.get small barrier
  | tryGet =>
      rw [perform_tryGet]
      split_ifs with waiting
      · exact fifo.get small waiting
      · exact fifo

theorem fifo_start (maxSize : Positive) : ({} : MailboxRun Message).Fifo maxSize :=
  ⟨rfl, Nat.zero_le _, Nat.zero_le _, (Ring.ahead_zero (Nat.zero_le _)).symm⟩

theorem isFifo_of_lt (small : maxSize < naturalLast) : IsFifo Message maxSize :=
  fun _ _ run => run.invariant (Fifo maxSize) (fifo_start maxSize) (Fifo.step small)

/-! ## The largest mailbox -/

/-- The largest mailbox. -/
def largest : Positive := ⟨naturalLast, by decide, le_rfl⟩

/-- After each message has been taken at once, both indexes have come as far as there were messages. -/
theorem exists_run_to (message : Message) {count : Nat} (within : count ≤ naturalLast) :
    ∃ (calls : List (MailboxCall Message)) (state : MailboxRun Message),
      Execution.Run (Step largest) {} calls state ∧ state.mailbox.currentSize = 0 ∧
      state.mailbox.current = count ∧ state.accepted.length = count ∧
      state.returned.length = count ∧ state.mailbox.last = count := by
  induction count with
  | zero => exact ⟨[], {}, .nil, rfl, rfl, rfl, rfl, rfl⟩
  | succ count ih =>
      obtain ⟨calls, state, run, size_eq, current_eq, accepted_eq, returned_eq, last_eq⟩ :=
        ih (Nat.le_of_succ_le within)
      have index_eq : Ring.ahead largest count 1 = count + 1 := if_pos within
      have indexed : Mailbox.increase largest count = .ok (count + 1) := by
        rw [increase_ok (Nat.le_of_succ_le within) (Nat.lt_of_succ_le within), index_eq]
      have counted : natural 1 = .ok 1 := rfl
      refine ⟨calls ++ [.add message] ++ [.get], _, .snoc (.snoc run ⟨?_, rfl⟩) ⟨?_, rfl⟩, ?_⟩
      · show state.mailbox.currentSize < naturalLast
        rw [size_eq]
        decide
      · simp [Open, perform, Mailbox.add, size_eq, current_eq, counted, indexed]
      · simp [perform, Mailbox.add, Mailbox.get, size_eq, current_eq, counted, indexed, last_eq,
          accepted_eq, returned_eq]

theorem largest_not_fifo (message : Message) : ¬IsFifo Message largest := by
  intro fifo
  obtain ⟨calls, state, run, size_eq, current_eq, accepted_eq, returned_eq, _⟩ :=
    exists_run_to message (le_refl naturalLast)
  have raising : Mailbox.increase largest naturalLast = .error .constraintError := by
    rw [Mailbox.increase, Http2.natural_of_gt (Nat.lt_succ_self _), Http2.error_bind]
  have counted : natural 1 = .ok 1 := rfl
  have barrier : state.Open largest (.add message) := by
    show state.mailbox.currentSize < naturalLast
    rw [size_eq]
    decide
  have broken := fifo _ _ (.snoc run ⟨barrier, rfl⟩)
  have lengths := congrArg List.length broken.accepted_eq
  simp [perform, Mailbox.add, Mailbox.size, size_eq, current_eq, counted, raising, accepted_eq,
    returned_eq] at lengths

/-- A mailbox is first in, first out, with its size within the capacity and its indexes in step, exactly
when its size is less than the last natural number. -/
theorem isFifo_iff (Message : Type) [Inhabited Message] (maxSize : Positive) :
    IsFifo Message maxSize ↔ maxSize < naturalLast := by
  refine ⟨fun fifo => ?_, isFifo_of_lt⟩
  by_contra large
  have largest_eq : maxSize = largest :=
    Subtype.ext (le_antisymm maxSize.2.2 (not_lt.1 large))
  exact largest_not_fifo default (largest_eq ▸ fifo)

/-- `Add` raises once the last element of the largest mailbox has been used. -/
theorem largest_mailbox_raises : ¬∀ maxSize : Positive, IsFifo Bool maxSize :=
  fun all => largest_not_fifo true (all largest)

end MailboxRun
end Utils
end AdaWebServer

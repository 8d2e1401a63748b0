import Mathlib.Data.Finset.Basic
import Mathlib.Data.Finset.Sort
import AdaWebServer.Foundations.Slots
import AdaWebServer.Http2.Basic

/-!
# Poll sets

A poll set keeps its entries in an array, at the positions from one up to its length.  The entries
above the length are what removed entries have left there.
-/

namespace AdaWebServer
namespace Net

open Http2 (Exn)
open Slots

/-- `Wait_Event_Type`. -/
inductive WaitEventType where
  | input
  | output
  deriving DecidableEq, Repr

/-- `Wait_Event_Set`. -/
abbrev WaitEventSet := WaitEventType → Bool

/-- `Event_Set`. -/
structure EventSet where
  input : Bool
  output : Bool
  error : Bool
  deriving DecidableEq, Repr

/-- The flags of `Events_Type`. -/
inductive PollFlag where
  | pollin
  | pollpri
  | pollout
  | pollerr
  | pollhup
  | pollnval
  deriving DecidableEq, Repr

/-- `Events_Type`, as the flags that are set. -/
abbrev EventsType := Finset PollFlag

/-- The events that `Status` makes of the flags. -/
def EventSet.ofRevents (revents : EventsType) : EventSet where
  input := decide (revents ∩ {.pollin, .pollpri} ≠ ∅)
  output := decide (revents ∩ {.pollout} ≠ ∅)
  error := decide (revents ∩ {.pollerr, .pollhup, .pollnval} ≠ ∅)

/-- `Pollfd`. -/
structure Pollfd where
  fd : Int := 0
  events : EventsType := ∅
  revents : EventsType := ∅

namespace Pollfd

/-- `To_C`. -/
def toC : WaitEventType → EventsType
  | .input => {.pollin, .pollpri}
  | .output => {.pollout}

/-- `Set_Event`. -/
def setEvent (item : Pollfd) (event : WaitEventType) (value : Bool) : Pollfd :=
  if value then { item with events := item.events ∪ toC event }
  else { item with events := item.events \ toC event }

/-- `Set_Mode`. -/
def setMode (item : Pollfd) (mode : WaitEventSet) : Pollfd :=
  (item.setEvent .input (mode .input)).setEvent .output (mode .output)

/-- The events that are waited for in a mode. -/
def eventsOf (mode : WaitEventSet) : EventsType :=
  (if mode .input then toC .input else ∅) ∪ (if mode .output then toC .output else ∅)

/-- `Wait` has reported something. -/
def HasEvents (item : Pollfd) : Prop := item.revents ≠ ∅

instance (item : Pollfd) : Decidable item.HasEvents := inferInstanceAs (Decidable (_ ≠ _))

/-- Only flags that `Set_Mode` sets or clears. -/
def Settable (item : Pollfd) : Prop := item.events ⊆ toC .input ∪ toC .output

@[simp]
theorem setEvent_fd (item : Pollfd) (event : WaitEventType) (value : Bool) :
    (item.setEvent event value).fd = item.fd := by
  cases value <;> rfl

@[simp]
theorem setEvent_revents (item : Pollfd) (event : WaitEventType) (value : Bool) :
    (item.setEvent event value).revents = item.revents := by
  cases value <;> rfl

@[simp]
theorem setMode_fd (item : Pollfd) (mode : WaitEventSet) : (item.setMode mode).fd = item.fd := by
  simp [setMode]

@[simp]
theorem setMode_revents (item : Pollfd) (mode : WaitEventSet) :
    (item.setMode mode).revents = item.revents := by
  simp [setMode]

theorem settable_default : Settable {} := Finset.empty_subset _

theorem Settable.with_fd {item : Pollfd} (settable : item.Settable) (fd : Int) :
    Settable { item with fd } := settable

theorem Settable.setEvent {item : Pollfd} (settable : item.Settable) (event : WaitEventType)
    (value : Bool) : (item.setEvent event value).Settable := by
  have subset : toC event ⊆ toC .input ∪ toC .output := by
    cases event
    · exact Finset.subset_union_left
    · exact Finset.subset_union_right
  cases value
  · exact Finset.sdiff_subset.trans settable
  · exact Finset.union_subset settable subset

theorem Settable.setMode {item : Pollfd} (settable : item.Settable) (mode : WaitEventSet) :
    (item.setMode mode).Settable :=
  (settable.setEvent _ _).setEvent _ _

theorem Settable.setMode_events {item : Pollfd} (settable : item.Settable) (mode : WaitEventSet) :
    (item.setMode mode).events = eventsOf mode := by
  ext flag
  have among := @settable flag
  revert among
  rw [Pollfd.setMode, Pollfd.setEvent, Pollfd.setEvent, eventsOf]
  cases flag <;> cases mode .input <;> cases mode .output <;> simp [toC]

end Pollfd

/-- `Poll_Events.Set`. -/
structure PollSet where
  size : Nat
  length : Nat := 0
  fds : Nat → Pollfd := fun _ => {}
  maxFd : Int := 0
  length_le : length ≤ size

namespace PollSet

/-- The set without entries. -/
def ofSize (size : Nat) : PollSet where
  size := size
  length_le := Nat.zero_le size

/-- `Check_Range`. -/
def InRange (self : PollSet) (index : Nat) : Prop := 0 < index ∧ index ≤ self.length

instance (self : PollSet) (index : Nat) : Decidable (self.InRange index) :=
  inferInstanceAs (Decidable (_ ∧ _))

/-- Change the entry at a position. -/
def modifyAt (self : PollSet) (index : Nat) (change : Pollfd → Pollfd) : PollSet :=
  { self with fds := Function.update self.fds index (change (self.fds index)) }

/-- `Add`. -/
def add (self : PollSet) (fd : Int) (event : WaitEventSet) : Except Exn PollSet :=
  if full : self.size ≤ self.length then .error .constraintError
  else if fd < 0 then .error .socketError
  else .ok
    { self with
      length := self.length + 1
      fds := Function.update self.fds (self.length + 1)
        ({ self.fds (self.length + 1) with fd }.setMode event)
      maxFd := max self.maxFd fd
      length_le := Nat.lt_of_not_le full }

/-- `Copy`. -/
def copy (self : PollSet) (size : Nat) : PollSet :=
  let length := if self.size < size then self.length else size
  let fds := fun index =>
    if 0 < index ∧ index ≤ min self.size size then self.fds index else {}
  { size, length, fds
    maxFd := (List.range length).foldl (fun highest index => max highest (fds (index + 1)).fd) 0
    length_le := by
      have := self.length_le
      show (if self.size < size then self.length else size) ≤ size
      split <;> omega }

/-- `Remove`. -/
def remove (self : PollSet) (index : Nat) : Except Exn PollSet :=
  if self.InRange index then
    .ok
      { self with
        fds := if index < self.length then moveTo self.fds index self.length else self.fds
        length := self.length - 1
        length_le := (Nat.sub_le _ _).trans self.length_le }
  else .error .constraintError

/-- `Replace`. -/
def replace (self : PollSet) (index : Nat) (fd : Int) : Except Exn PollSet :=
  if self.InRange index then
    .ok { self.modifyAt index ({ · with fd }) with maxFd := max self.maxFd fd }
  else .error .constraintError

/-- `Set_Event`. -/
def setEvent (self : PollSet) (index : Nat) (event : WaitEventType) (value : Bool) :
    Except Exn PollSet :=
  if self.InRange index then .ok (self.modifyAt index (·.setEvent event value))
  else .error .constraintError

/-- `Set_Mode`. -/
def setMode (self : PollSet) (index : Nat) (mode : WaitEventSet) : Except Exn PollSet :=
  if self.InRange index then .ok (self.modifyAt index (·.setMode mode))
  else .error .constraintError

/-- `Next`, with as many turns as there are positions left. -/
def nextIn (self : PollSet) : Nat → Nat → Nat
  | 0, index => index
  | turns + 1, index =>
      if self.length < index ∨ (self.fds index).revents ≠ ∅ then index
      else self.nextIn turns (index + 1)

/-- `Next`. -/
def next (self : PollSet) (index : Nat) : Nat := self.nextIn (self.length + 1 - index) index

/-- `Status`. -/
def status (self : PollSet) (index : Nat) : Except Exn EventSet :=
  if self.InRange index then .ok (EventSet.ofRevents (self.fds index).revents)
  else .error .constraintError

/-- `Wait`, with what the system reports for each position: the set and the number of entries with
events. -/
def wait (self : PollSet) (polled : Nat → EventsType) : PollSet × Nat :=
  ({ self with
      fds := fun index =>
        if 0 < index ∧ index ≤ self.length then { self.fds index with revents := polled index }
        else self.fds index },
    ((List.range self.length).filter fun index => polled (index + 1) ≠ ∅).length)

/-- The set that `Net.Add` adds to: a copy of twice the size, or with 256 more entries, if the set is
full. -/
def grow (self : PollSet) : PollSet :=
  if self.length = self.size then
    if self.size < 256 then self.copy (self.size * 2) else self.copy (self.size + 256)
  else self

/-- `To_FD_Set`. -/
def toFdSet (fd : Int) (events : WaitEventSet) (size : Nat) : Except Exn PollSet :=
  (ofSize size).add fd events

/-! ## What the operations do -/

theorem add_ok {self next : PollSet} {fd : Int} {event : WaitEventSet}
    (added : self.add fd event = .ok next) :
    next.length = self.length + 1 ∧ next.fds = Function.update self.fds (self.length + 1)
      ({ self.fds (self.length + 1) with fd }.setMode event) := by
  rw [add] at added
  split_ifs at added
  cases added
  exact ⟨rfl, rfl⟩

theorem add_size {self next : PollSet} {fd : Int} {event : WaitEventSet}
    (added : self.add fd event = .ok next) : next.size = self.size := by
  rw [add] at added
  split_ifs at added
  cases added
  rfl

theorem add_of_room {self : PollSet} (room : self.length < self.size) {fd : Int}
    (described : 0 ≤ fd) (event : WaitEventSet) : ∃ next, self.add fd event = .ok next := by
  rw [add, dif_neg (Nat.not_le_of_lt room), if_neg (Int.not_lt.mpr described)]
  exact ⟨_, rfl⟩

theorem remove_ok {self next : PollSet} {index : Nat} (removed : self.remove index = .ok next) :
    self.InRange index ∧ next.length = self.length - 1 ∧
      next.fds = if index < self.length then moveTo self.fds index self.length else self.fds := by
  rw [remove] at removed
  split_ifs at removed with in_range shorter
  · cases removed
    exact ⟨in_range, rfl, (if_pos shorter).symm⟩
  · cases removed
    exact ⟨in_range, rfl, (if_neg shorter).symm⟩

theorem remove_size {self next : PollSet} {index : Nat} (removed : self.remove index = .ok next) :
    next.size = self.size := by
  rw [remove] at removed
  split_ifs at removed
  · cases removed
    rfl
  · cases removed
    rfl

theorem remove_of_inRange {self : PollSet} {index : Nat} (in_range : self.InRange index) :
    ∃ next, self.remove index = .ok next :=
  ⟨_, if_pos in_range⟩

/-- At the positions that are left, an entry has been moved to the position of the removed one. -/
theorem remove_fds {self next : PollSet} {index : Nat} (removed : self.remove index = .ok next)
    {position : Nat} (within : position ≤ next.length) :
    next.fds position = moveTo self.fds index self.length position := by
  obtain ⟨in_range, length_eq, fds_eq⟩ := remove_ok removed
  rw [fds_eq]
  split_ifs with shorter
  · rfl
  · have other : position ≠ index := by
      have := in_range.1
      omega
    rw [moveTo, Function.update_of_ne other]

@[simp]
theorem grow_length (self : PollSet) : self.grow.length = self.length := by
  have := self.length_le
  rw [grow]
  split_ifs with full small
  · show (if self.size < self.size * 2 then self.length else self.size * 2) = self.length
    split_ifs <;> omega
  · show (if self.size < self.size + 256 then self.length else self.size + 256) = self.length
    split_ifs <;> omega
  · rfl

theorem size_le_grow (self : PollSet) : self.size ≤ self.grow.size := by
  rw [grow]
  split_ifs
  · exact Nat.le_mul_of_pos_right self.size Nat.two_pos
  · exact Nat.le_add_right self.size 256
  · exact le_rfl

theorem grow_fds (self : PollSet) {index : Nat} (positive : 0 < index)
    (within : index ≤ self.length) : self.grow.fds index = self.fds index := by
  have := self.length_le
  rw [grow]
  split_ifs with full small
  · exact if_pos ⟨positive, by omega⟩
  · exact if_pos ⟨positive, by omega⟩
  · rfl

theorem grow_fds_eq (self : PollSet) (index : Nat) :
    self.grow.fds index = self.fds index ∨ self.grow.fds index = {} := by
  rw [grow]
  split_ifs
  · exact (ite_eq_or_eq _ _ _)
  · exact (ite_eq_or_eq _ _ _)
  · exact .inl rfl

theorem grow_room (self : PollSet) (allocated : 0 < self.size) :
    self.grow.length < self.grow.size := by
  have := self.length_le
  rw [grow_length, grow]
  split_ifs with full small
  · show self.length < self.size * 2
    omega
  · show self.length < self.size + 256
    omega
  · omega

/-! ## The entries with events -/

/-- The number of the entries with events, but for the first entries. -/
def readyAfter (self : PollSet) (skipped : Nat) : Nat :=
  (heldAfter self.fds skipped self.length).countP Pollfd.HasEvents

/-- `Wait` counts the entries with events. -/
theorem wait_count (self : PollSet) (polled : Nat → EventsType) :
    (self.wait polled).2 = (self.wait polled).1.readyAfter 0 := by
  have counted : ∀ count ≤ self.length,
      ((List.range count).filter fun index => polled (index + 1) ≠ ∅).length =
        (held (self.wait polled).1.fds count).countP Pollfd.HasEvents := by
    intro count
    induction count with
    | zero => exact fun _ => rfl
    | succ count ih =>
        intro within
        have entry : ((self.wait polled).1.fds (count + 1)).HasEvents ↔ polled (count + 1) ≠ ∅ := by
          show (ite _ _ _ : Pollfd).revents ≠ ∅ ↔ _
          rw [if_pos ⟨Nat.succ_pos count, within⟩]
        rw [List.range_succ, List.filter_append, List.length_append, ih (Nat.le_of_succ_le within),
          held_succ]
        by_cases ready : polled (count + 1) ≠ ∅
        · rw [Multiset.countP_cons_of_pos _ (entry.2 ready),
            List.filter_cons, if_pos (decide_eq_true ready), List.filter_nil, List.length_singleton]
        · rw [Multiset.countP_cons_of_neg _ (mt entry.1 ready),
            List.filter_cons, if_neg (by rwa [decide_eq_true_iff]), List.filter_nil, List.length_nil,
            Nat.add_zero]
  rw [readyAfter, heldAfter_zero]
  exact counted self.length le_rfl

/-- `Next` finds an entry with events if there is one, and passes only entries without events. -/
theorem next_ready {self : PollSet} {skipped : Nat} (some_ready : 0 < self.readyAfter skipped) :
    ∃ passed, self.next (skipped + 1) = passed + 1 ∧ passed < self.length ∧
      (self.fds (passed + 1)).HasEvents ∧ self.readyAfter passed = self.readyAfter skipped := by
  have within : ∀ {skipped}, 0 < self.readyAfter skipped → skipped < self.length := by
    intro skipped some_ready
    by_contra above
    rw [readyAfter, heldAfter, Nat.sub_eq_zero_of_le (Nat.le_of_not_lt above)] at some_ready
    exact Nat.lt_irrefl 0 some_ready
  have found : ∀ turns skipped, self.length - skipped = turns → 0 < self.readyAfter skipped →
      ∃ passed, self.nextIn turns (skipped + 1) = passed + 1 ∧ passed < self.length ∧
        (self.fds (passed + 1)).HasEvents ∧ self.readyAfter passed = self.readyAfter skipped := by
    intro turns
    induction turns with
    | zero =>
        intro skipped enough some_ready
        have := within some_ready
        omega
    | succ turns ih =>
        intro skipped enough some_ready
        rw [nextIn]
        by_cases ready : (self.fds (skipped + 1)).HasEvents
        · rw [if_pos (Or.inr ready : _ ∨ (self.fds (skipped + 1)).revents ≠ ∅)]
          exact ⟨skipped, rfl, within some_ready, ready, rfl⟩
        · have same : self.readyAfter (skipped + 1) = self.readyAfter skipped := by
            rw [readyAfter, readyAfter, heldAfter_skip self.fds (within some_ready),
              Multiset.countP_cons_of_neg _ ready]
          have below := within some_ready
          have go_on : ¬(self.length < skipped + 1 ∨ (self.fds (skipped + 1)).revents ≠ ∅) :=
            not_or_intro (by omega) ready
          rw [if_neg go_on, ← same]
          exact ih (skipped + 1) (by omega) (same ▸ some_ready)
  have counted := found (self.length - skipped) skipped rfl some_ready
  rwa [next, Nat.add_sub_add_right]

/-- `Next` does not go back. -/
theorem le_next (self : PollSet) (index : Nat) : index ≤ self.next index := by
  have forward : ∀ turns index, index ≤ self.nextIn turns index := by
    intro turns
    induction turns with
    | zero => exact fun _ => le_rfl
    | succ turns ih =>
        intro index
        rw [nextIn]
        split_ifs
        · exact le_rfl
        · exact (Nat.le_succ index).trans (ih (index + 1))
  exact forward _ _

/-- `Next` passes only entries without events. -/
theorem next_skips {self : PollSet} {skipped position : Nat} (above : skipped < position)
    (below : position < self.next (skipped + 1)) : ¬(self.fds position).HasEvents := by
  have passes : ∀ turns index, index ≤ position → position < self.nextIn turns index →
      ¬(self.fds position).HasEvents := by
    intro turns
    induction turns with
    | zero =>
        intro index reached below
        exact absurd (reached.trans_lt below) (Nat.lt_irrefl _)
    | succ turns ih =>
        intro index reached below
        rw [nextIn] at below
        split_ifs at below with stops
        · exact absurd (reached.trans_lt below) (Nat.lt_irrefl _)
        · obtain rfl | later := reached.eq_or_lt
          · exact (not_or.1 stops).2
          · exact ih (index + 1) later below
  exact passes _ _ above below

end PollSet
end Net
end AdaWebServer

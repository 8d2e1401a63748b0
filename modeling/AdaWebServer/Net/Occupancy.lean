import AdaWebServer.Foundations.Execution
import AdaWebServer.Foundations.Protected
import AdaWebServer.Net.GenericSets

/-!
# The occupants of a set of sockets

A ledger of the operations on a set says which socket is at which position, with the data and the
mode that it was given and the events that the last wait reported for it.  A set corresponds to its
ledger; only the data of a socket that was added without data are those of an earlier occupant of
the position.
-/

namespace AdaWebServer
namespace Net

open Http2 (Exn)
open Execution Slots

variable {σ δ : Type}

/-! ## The ledger -/

/-- A socket in a set. -/
structure Occupant (σ δ : Type) where
  socket : Option σ := none
  data : Option δ := none
  mode : WaitEventSet := fun _ => false
  reported : EventsType := ∅

/-- The socket and the data. -/
def Occupant.pair (occupant : Occupant σ δ) : Option σ × Option δ :=
  (occupant.socket, occupant.data)

/-- The occupants of the positions, and the pairs that have been added and removed. -/
structure Ledger (σ δ : Type) where
  count : Nat := 0
  occupant : Nat → Occupant σ δ := fun _ => {}
  added : Multiset (Option σ × Option δ) := 0
  removed : Multiset (Option σ × Option δ) := 0

namespace Ledger

/-- The pairs in the set. -/
def pairs (ledger : Ledger σ δ) : Multiset (Option σ × Option δ) :=
  held (fun position => (ledger.occupant position).pair) ledger.count

/-- A socket is added. -/
def add (ledger : Ledger σ δ) (occupant : Occupant σ δ) : Ledger σ δ :=
  { ledger with
    count := ledger.count + 1
    occupant := Function.update ledger.occupant (ledger.count + 1) occupant
    added := occupant.pair ::ₘ ledger.added }

/-- A socket is removed. -/
def remove (ledger : Ledger σ δ) (index : Nat) : Ledger σ δ :=
  { ledger with
    count := ledger.count - 1
    occupant := moveTo ledger.occupant index ledger.count
    removed := (ledger.occupant index).pair ::ₘ ledger.removed }

/-- An occupant replaces the one at its position. -/
def replace (ledger : Ledger σ δ) (index : Nat) (occupant : Occupant σ δ) : Ledger σ δ :=
  { ledger with
    occupant := Function.update ledger.occupant index occupant
    added := occupant.pair ::ₘ ledger.added
    removed := (ledger.occupant index).pair ::ₘ ledger.removed }

/-- An occupant is waited for in another mode. -/
def setMode (ledger : Ledger σ δ) (index : Nat) (mode : WaitEventSet) : Ledger σ δ :=
  { ledger with
    occupant := Function.update ledger.occupant index { ledger.occupant index with mode } }

/-- All sockets are removed. -/
def reset (ledger : Ledger σ δ) : Ledger σ δ :=
  { ledger with count := 0, removed := ledger.pairs + ledger.removed }

/-- A wait reports events for the occupants. -/
def wait (ledger : Ledger σ δ) (polled : Nat → EventsType) : Ledger σ δ :=
  { ledger with
    occupant := fun position => { ledger.occupant position with reported := polled position } }

/-- Every pair that has been added is in the set or has been removed. -/
def Balanced (ledger : Ledger σ δ) : Prop := ledger.pairs + ledger.removed = ledger.added

theorem balanced_empty : Balanced ({} : Ledger σ δ) := rfl

private theorem pairs_update (ledger : Ledger σ δ) (position : Nat) (occupant : Occupant σ δ) :
    (fun index => (Function.update ledger.occupant position occupant index).pair) =
      Function.update (fun index => (ledger.occupant index).pair) position occupant.pair :=
  Function.comp_update Occupant.pair ledger.occupant position occupant

theorem Balanced.add {ledger : Ledger σ δ} (balanced : ledger.Balanced)
    (occupant : Occupant σ δ) : (ledger.add occupant).Balanced := by
  have pairs : (ledger.add occupant).pairs = occupant.pair ::ₘ ledger.pairs := by
    show held (fun index => (Function.update ledger.occupant _ occupant index).pair)
      (ledger.count + 1) = _
    rw [pairs_update, held_add, Ledger.pairs]
  show (ledger.add occupant).pairs + ledger.removed = occupant.pair ::ₘ ledger.added
  rw [pairs, Multiset.cons_add, balanced]

theorem Balanced.remove {ledger : Ledger σ δ} (balanced : ledger.Balanced) {index : Nat}
    (positive : 0 < index) (within : index ≤ ledger.count) : (ledger.remove index).Balanced := by
  have pairs : (ledger.occupant index).pair ::ₘ (ledger.remove index).pairs = ledger.pairs := by
    show _ ::ₘ held (fun position => (moveTo ledger.occupant index ledger.count position).pair)
      _ = _
    rw [moveTo, pairs_update]
    exact held_moveTo positive within
  show (ledger.remove index).pairs + (ledger.occupant index).pair ::ₘ ledger.removed = ledger.added
  rw [Multiset.add_cons, ← Multiset.cons_add, pairs, balanced]

theorem Balanced.replace {ledger : Ledger σ δ} (balanced : ledger.Balanced) {index : Nat}
    (positive : 0 < index) (within : index ≤ ledger.count) (occupant : Occupant σ δ) :
    (ledger.replace index occupant).Balanced := by
  have pairs : (ledger.occupant index).pair ::ₘ (ledger.replace index occupant).pairs =
      occupant.pair ::ₘ ledger.pairs := by
    show _ ::ₘ held (fun position => (Function.update ledger.occupant index occupant position).pair)
      _ = _
    rw [pairs_update]
    exact held_update positive within _
  show (ledger.replace index occupant).pairs + (ledger.occupant index).pair ::ₘ ledger.removed =
    occupant.pair ::ₘ ledger.added
  rw [Multiset.add_cons, ← Multiset.cons_add, pairs, Multiset.cons_add, balanced]

theorem Balanced.setMode {ledger : Ledger σ δ} (balanced : ledger.Balanced) (index : Nat)
    (mode : WaitEventSet) : (ledger.setMode index mode).Balanced := by
  have same : (ledger.setMode index mode).pairs = ledger.pairs := by
    show held (fun position => (Function.update ledger.occupant index _ position).pair) _ = _
    rw [pairs_update]
    exact congrArg (held · _) (Function.update_eq_self index _)
  show (ledger.setMode index mode).pairs + ledger.removed = ledger.added
  rw [same, balanced]

theorem Balanced.reset {ledger : Ledger σ δ} (balanced : ledger.Balanced) :
    ledger.reset.Balanced := by
  show (0 : Multiset _) + (ledger.pairs + ledger.removed) = ledger.added
  rw [zero_add, balanced]

end Ledger

/-! ## The operations -/

/-- The operations on a set. -/
inductive SetOperation (σ δ : Type) where
  /-- `Add`. -/
  | add (socket : σ) (allocated : Bool) (data : Option δ) (mode : WaitEventSet)
  /-- `Remove_Socket`. -/
  | removeSocket (index : Nat)
  /-- `Set_Data`. -/
  | setData (index : Nat) (data : δ)
  /-- `Set_Mode`. -/
  | setMode (index : Nat) (mode : WaitEventSet)
  /-- `Update_Socket`. -/
  | updateSocket (index : Nat) (process : σ × Option δ → σ × Option δ)
  /-- `Reset`. -/
  | reset
  /-- `Wait`. -/
  | wait (polled : Nat → EventsType)

/-- A set and its ledger. -/
structure Tracked (σ δ : Type) where
  set : SocketSet σ δ := none
  ledger : Ledger σ δ := {}

namespace SetOperation

variable (getFd : σ → Int)

/-- The precondition of an operation.  A socket that is added to a full set has a descriptor. -/
def Pre (set : SocketSet σ δ) : SetOperation σ δ → Prop
  | removeSocket index | setData index _ | setMode index _ | updateSocket index _ =>
      set.InRange index
  | add socket _ _ _ => set.HasRoom ∨ 0 ≤ getFd socket
  | reset | wait _ => True

instance (set : SocketSet σ δ) (operation : SetOperation σ δ) :
    Decidable (operation.Pre getFd set) := by
  cases operation <;> unfold Pre <;> infer_instance

/-- What an operation does to a set. -/
def run : SetOperation σ δ → SetAction σ δ Unit
  | add socket allocated data mode => SocketSet.add getFd socket allocated data mode
  | removeSocket index => do let _ ← SocketSet.removeSocket index
  | setData index data => SocketSet.setData index data
  | setMode index mode => SocketSet.setMode index mode
  | updateSocket index process => SocketSet.updateSocket getFd index process
  | reset => SocketSet.reset
  | wait polled => do let _ ← SocketSet.wait polled

/-- What an operation on a set does to its ledger. -/
def note (set : SocketSet σ δ) (ledger : Ledger σ δ) : SetOperation σ δ → Ledger σ δ
  | add socket _ data mode => ledger.add { socket := some socket, data, mode }
  | removeSocket index => ledger.remove index
  | setData index data => ledger.replace index { ledger.occupant index with data := some data }
  | setMode index mode => ledger.setMode index mode
  | updateSocket index process =>
      match set.getSocket index with
      | none => ledger
      | some socket =>
          let after := process (socket, set.getData index)
          let occupant := ledger.occupant index
          ledger.replace index
            { occupant with
              socket := some after.1
              data := after.2
              reported := if getFd after.1 = getFd socket then occupant.reported else ∅ }
  | reset => ledger.reset
  | wait polled => ledger.wait polled

end SetOperation

namespace Tracked

variable (getFd : σ → Int)

/-- One operation. -/
def step (self : Tracked σ δ) (operation : SetOperation σ δ) : Tracked σ δ :=
  match operation.run getFd self.set with
  | .ok _ set => { set, ledger := operation.note getFd self.set self.ledger }
  | .error _ set => { self with set }

/-- The steps of a set: an operation is called when its precondition holds. -/
def Steps : Tracked σ δ → SetOperation σ δ → Tracked σ δ → Prop :=
  Performs (fun self operation => operation.Pre getFd self.set) (step getFd)

end Tracked

/-! ## The correspondence -/

/-- The record and the entry of the poll set at the position of an occupant. -/
structure Matches (getFd : σ → Int) (record : SocketRecord σ δ) (entry : Pollfd)
    (occupant : Occupant σ δ) : Prop where
  socket : record.socket = occupant.socket
  fd : ∀ socket ∈ occupant.socket, entry.fd = getFd socket
  present : occupant.socket.isSome = true
  events : entry.events = Pollfd.eventsOf occupant.mode
  data : ∀ data, occupant.data = some data → record.data = some data

/-- The contents of a set correspond to a ledger. -/
structure Contents.Corresponds (getFd : σ → Int) (contents : Contents σ δ) (ledger : Ledger σ δ) :
    Prop where
  intact : contents.dangling = false
  allocated : 0 < contents.poll.size
  length_le : contents.poll.length ≤ contents.set.size
  count : contents.poll.length = ledger.count
  settable : ∀ position, (contents.poll.fds position).Settable
  positions : ∀ position, 0 < position → position ≤ contents.poll.length →
    Matches getFd (contents.set.record position) (contents.poll.fds position)
      (ledger.occupant position)

/-- A set corresponds to a ledger. -/
def SocketSet.Corresponds (getFd : σ → Int) : SocketSet σ δ → Ledger σ δ → Prop
  | none, ledger => ledger.count = 0
  | some contents, ledger => contents.Corresponds getFd ledger

variable {getFd : σ → Int}

private theorem settable_grow {poll : PollSet} (settable : ∀ index, (poll.fds index).Settable)
    (index : Nat) : (poll.grow.fds index).Settable := by
  rcases poll.grow_fds_eq index with same | fresh
  · rw [same]
    exact settable index
  · rw [fresh]
    exact Pollfd.settable_default

private theorem grow_record (set : SocketArray σ δ) {length : Nat} (pollSize : Nat) {index : Nat}
    (positive : 0 < index) (within : index ≤ set.size) :
    (set.grow length pollSize).record index = set.record index := by
  rw [SocketArray.grow]
  split_ifs
  · exact if_pos ⟨positive, within⟩
  · rfl

private theorem le_grow_size (set : SocketArray σ δ) {length pollSize : Nat}
    (within : length ≤ pollSize) : length ≤ (set.grow length pollSize).size := by
  rw [SocketArray.grow]
  split_ifs with short
  · exact within
  · omega

/-- A socket is added after the last position. -/
theorem Contents.Corresponds.add {contents : Contents σ δ} {ledger : Ledger σ δ}
    (corresponds : contents.Corresponds getFd ledger) {socket : σ} {mode : WaitEventSet}
    {poll : PollSet} (added : contents.poll.grow.add (getFd socket) mode = .ok poll)
    (allocated : Bool) (data : Option δ) :
    Contents.Corresponds getFd
      { contents with
        poll
        set := ((contents.set.grow poll.length poll.size).modifyAt poll.length
          ({ · with socket := some socket })).modifyAt poll.length fun record =>
            { record with allocated, data := data.or record.data } }
      (ledger.add { socket := some socket, data, mode }) := by
  obtain ⟨length_eq, fds_eq⟩ := PollSet.add_ok added
  rw [PollSet.grow_length] at length_eq fds_eq
  have settable := settable_grow corresponds.settable
  refine ⟨corresponds.intact, ?_, le_grow_size _ poll.length_le, ?_, ?_, ?_⟩
  · show 0 < poll.size
    rw [PollSet.add_size added]
    exact corresponds.allocated.trans_le contents.poll.size_le_grow
  · show poll.length = ledger.count + 1
    rw [length_eq, corresponds.count]
  · intro position
    show (poll.fds position).Settable
    rw [fds_eq, Function.update_apply]
    split_ifs
    · exact ((settable _).with_fd _).setMode _
    · exact settable position
  · intro position positive within
    change position ≤ poll.length at within
    dsimp only [SocketArray.modifyAt, Ledger.add]
    rw [fds_eq, ← corresponds.count, ← length_eq]
    by_cases last : position = poll.length
    · subst last
      rw [Function.update_self, Function.update_self, Function.update_self, Function.update_self]
      refine ⟨rfl, ?_, rfl, ?_, ?_⟩
      · intro other is_socket
        cases is_socket
        exact Pollfd.setMode_fd _ _
      · exact ((settable _).with_fd _).setMode_events _
      · intro given given_eq
        cases given_eq
        rfl
    · rw [Function.update_of_ne last, Function.update_of_ne last, Function.update_of_ne last,
        Function.update_of_ne last, PollSet.grow_fds _ positive (by omega),
        grow_record _ _ positive (by have := corresponds.length_le; omega)]
      exact corresponds.positions position positive (by omega)

/-- The last socket is moved to the position of one that is removed. -/
theorem Contents.Corresponds.remove {contents : Contents σ δ} {ledger : Ledger σ δ}
    (corresponds : contents.Corresponds getFd ledger) {index : Nat} {poll : PollSet}
    (removed : contents.poll.remove index = .ok poll) :
    Contents.Corresponds getFd
      { contents with poll, set := contents.set.compact index contents.poll.length }
      (ledger.remove index) := by
  obtain ⟨in_range, length_eq, fds_eq⟩ := PollSet.remove_ok removed
  refine ⟨corresponds.intact, ?_, ?_, ?_, ?_, ?_⟩
  · show 0 < poll.size
    rw [PollSet.remove_size removed]
    exact corresponds.allocated
  · show poll.length ≤ contents.set.size
    have := corresponds.length_le
    omega
  · show poll.length = ledger.count - 1
    rw [length_eq, corresponds.count]
  · intro position
    show (poll.fds position).Settable
    rw [fds_eq]
    split_ifs
    · rw [moveTo, Function.update_apply]
      split_ifs
      · exact corresponds.settable _
      · exact corresponds.settable _
    · exact corresponds.settable _
  · intro position positive within
    change position ≤ poll.length at within
    have not_last : position ≠ contents.poll.length := by omega
    have record_eq : (contents.set.compact index contents.poll.length).record position =
        moveTo contents.set.record index contents.poll.length position := by
      show Function.update _ contents.poll.length _ position = _
      rw [Function.update_of_ne not_last]
      split_ifs
      · rfl
      · rw [moveTo, Function.update_of_ne (by have := in_range.2; omega)]
    show Matches getFd ((contents.set.compact index contents.poll.length).record position)
      (poll.fds position) (moveTo ledger.occupant index ledger.count position)
    rw [record_eq, PollSet.remove_fds removed within, ← corresponds.count, moveTo, moveTo, moveTo,
      Function.update_apply, Function.update_apply, Function.update_apply]
    have last := corresponds.positions contents.poll.length (by omega) le_rfl
    split_ifs
    · exact last
    · exact corresponds.positions position positive (by omega)

/-- The record, the entry and the occupant at one position change together. -/
theorem Contents.Corresponds.change {contents : Contents σ δ} {ledger next : Ledger σ δ}
    (corresponds : contents.Corresponds getFd ledger) (index : Nat)
    {record : SocketRecord σ δ} {entry : Pollfd} {occupant : Occupant σ δ} {poll : PollSet}
    (size_eq : poll.size = contents.poll.size) (length_eq : poll.length = contents.poll.length)
    (fds_eq : poll.fds = Function.update contents.poll.fds index entry)
    (count_eq : next.count = ledger.count)
    (occupant_eq : next.occupant = Function.update ledger.occupant index occupant)
    (settable : entry.Settable) (together : Matches getFd record entry occupant) :
    Contents.Corresponds getFd
      { contents with poll, set := contents.set.modifyAt index fun _ => record } next := by
  refine ⟨corresponds.intact, ?_, ?_, ?_, ?_, ?_⟩
  · show 0 < poll.size
    rw [size_eq]
    exact corresponds.allocated
  · show poll.length ≤ contents.set.size
    exact length_eq.trans_le corresponds.length_le
  · show poll.length = next.count
    rw [length_eq, corresponds.count, count_eq]
  · intro position
    show (poll.fds position).Settable
    rw [fds_eq, Function.update_apply]
    split_ifs
    · exact settable
    · exact corresponds.settable position
  · intro position positive within
    change position ≤ poll.length at within
    dsimp only [SocketArray.modifyAt]
    rw [fds_eq, occupant_eq, Function.update_apply, Function.update_apply, Function.update_apply]
    split_ifs
    · exact together
    · exact corresponds.positions position positive (length_eq ▸ within)

/-- The set that an operation leaves corresponds to the ledger of the operation if it returns, and
to the ledger from before if it raises. -/
def Agrees {α : Type} (getFd : σ → Int) (ledger next : Ledger σ δ) :
    EStateM.Result Exn (SocketSet σ δ) α → Prop
  | .ok _ set => set.Corresponds getFd next
  | .error _ set => set.Corresponds getFd ledger

/-- `Add` of a socket without a descriptor to a full set leaves a poll set that has been freed. -/
theorem SocketSet.dangling_of_add {set : SocketSet σ δ} (full : ¬set.HasRoom) {socket : σ}
    (negative : getFd socket < 0) (allocated : Bool) (data : Option δ) (mode : WaitEventSet) :
    ∃ exn next, SocketSet.add getFd socket allocated data mode set = .error exn next ∧
      next.Dangling := by
  obtain _ | contents := set
  · exact absurd trivial full
  · have freed : contents.poll.length = contents.poll.size :=
      contents.poll.length_le.antisymm (Nat.le_of_not_lt full)
    obtain ⟨exn, raised⟩ : ∃ exn, contents.poll.grow.add (getFd socket) mode = .error exn := by
      rw [PollSet.add]
      split_ifs
      · exact ⟨_, rfl⟩
      · exact ⟨_, rfl⟩
    refine ⟨exn, some { contents with dangling := contents.dangling || true }, ?_,
      Bool.or_true contents.dangling⟩
    show EStateM.bind (SocketSet.addPrivate getFd socket mode) _ _ = _
    rw [EStateM.bind, SocketSet.addPrivate, raised]
    dsimp only
    rw [decide_eq_true freed]

/-- `Add` that raises leaves a set with room as it is. -/
theorem SocketSet.add_error {contents : Contents σ δ}
    (room : contents.poll.length < contents.poll.size) {socket : σ}
    {mode : WaitEventSet} {exn : Exn}
    (raised : contents.poll.grow.add (getFd socket) mode = .error exn) (allocated : Bool)
    (data : Option δ) :
    SocketSet.add getFd socket allocated data mode (some contents) = .error exn
      (some contents) := by
  have kept : decide (contents.poll.length = contents.poll.size) = false :=
    decide_eq_false (Nat.ne_of_lt room)
  show EStateM.bind (SocketSet.addPrivate getFd socket mode) _ _ = _
  rw [EStateM.bind, SocketSet.addPrivate, raised]
  dsimp only
  rw [kept, Bool.or_false]

theorem Agrees.add {set : SocketSet σ δ} {ledger : Ledger σ δ}
    (corresponds : set.Corresponds getFd ledger) {socket : σ}
    (pre : set.HasRoom ∨ 0 ≤ getFd socket) (allocated : Bool) (data : Option δ)
    (mode : WaitEventSet) :
    Agrees getFd ledger (ledger.add { socket := some socket, data, mode })
      (SocketSet.add getFd socket allocated data mode set) := by
  obtain _ | contents := set
  · have start : Contents.Corresponds getFd
        ({ poll := PollSet.ofSize 4, set := { size := 4 } } : Contents σ δ) ledger :=
      ⟨rfl, Nat.succ_pos 3, Nat.zero_le 4, corresponds.symm, fun _ => Pollfd.settable_default,
        fun position positive within => absurd within (Nat.not_le_of_lt positive)⟩
    cases added : (PollSet.ofSize 4).add (getFd socket) mode with
    | error exn =>
        have raised : SocketSet.add getFd socket allocated data mode none = .error exn none := by
          show EStateM.bind (SocketSet.addPrivate getFd socket mode) _ none = _
          rw [EStateM.bind, SocketSet.addPrivate, PollSet.toFdSet, added]
        rw [raised]
        exact corresponds
    | ok poll =>
        have holds := start.add added allocated data
        have length_eq : poll.length = 1 := (PollSet.add_ok added).1
        have size_eq : poll.size = 4 := PollSet.add_size added
        have returned : SocketSet.add getFd socket allocated data mode none =
            .ok () (some
              { poll
                set := ((({ size := 4 } : SocketArray σ δ).grow poll.length poll.size).modifyAt
                  poll.length ({ · with socket := some socket })).modifyAt poll.length fun record =>
                    { record with allocated, data := data.or record.data } }) := by
          show EStateM.bind (SocketSet.addPrivate getFd socket mode) _ none = _
          have kept : ({ size := 4 } : SocketArray σ δ).grow poll.length poll.size =
              { size := poll.size } := by
            rw [length_eq, size_eq]
            rfl
          rw [kept, length_eq, EStateM.bind, SocketSet.addPrivate, PollSet.toFdSet, added]
          rfl
        rw [returned]
        exact holds
  · cases added : contents.poll.grow.add (getFd socket) mode with
    | error exn =>
        rcases pre with room | described
        · rw [SocketSet.add_error room added]
          exact corresponds
        · have positive := Contents.Corresponds.allocated corresponds
          obtain ⟨next, succeeds⟩ := PollSet.add_of_room (PollSet.grow_room _ positive)
            described mode
          rw [succeeds] at added
          cases added
    | ok poll =>
        have returned : SocketSet.add getFd socket allocated data mode (some contents) =
            .ok () (some
              { contents with
                poll
                set := ((contents.set.grow poll.length poll.size).modifyAt poll.length
                  ({ · with socket := some socket })).modifyAt poll.length fun record =>
                    { record with allocated, data := data.or record.data } }) := by
          show EStateM.bind (SocketSet.addPrivate getFd socket mode) _ _ = _
          rw [EStateM.bind, SocketSet.addPrivate, added]
          rfl
        rw [returned]
        exact Contents.Corresponds.add corresponds added allocated data

/-- `Add` of a socket with a descriptor returns. -/
theorem SocketSet.add_described {set : SocketSet σ δ} {ledger : Ledger σ δ}
    (corresponds : set.Corresponds getFd ledger) {socket : σ} (described : 0 ≤ getFd socket)
    (allocated : Bool) (data : Option δ) (mode : WaitEventSet) :
    ∃ next, SocketSet.add getFd socket allocated data mode set = .ok () (some next) := by
  obtain _ | contents := set
  · obtain ⟨poll, added⟩ := PollSet.add_of_room (show (PollSet.ofSize 4).length < 4 by decide)
      described mode
    show ∃ next, EStateM.bind (SocketSet.addPrivate getFd socket mode) _ none = _
    rw [EStateM.bind, SocketSet.addPrivate, PollSet.toFdSet, added]
    exact ⟨_, rfl⟩
  · have positive := Contents.Corresponds.allocated corresponds
    obtain ⟨poll, added⟩ := PollSet.add_of_room (PollSet.grow_room _ positive) described mode
    show ∃ next, EStateM.bind (SocketSet.addPrivate getFd socket mode) _ _ = _
    rw [EStateM.bind, SocketSet.addPrivate, added]
    exact ⟨_, rfl⟩

/-- What `Remove_Socket` returns and leaves. -/
theorem SocketSet.removeSocket_eq {contents : Contents σ δ} {ledger : Ledger σ δ}
    (corresponds : contents.Corresponds getFd ledger) {index : Nat}
    (in_range : contents.poll.InRange index) :
    ∃ poll, contents.poll.remove index = .ok poll ∧
      SocketSet.removeSocket index (some contents) =
        .ok ((contents.set.record index).socket, (contents.set.record index).data)
          (some { contents with
            poll, set := contents.set.compact index contents.poll.length }) := by
  obtain ⟨poll, removed⟩ := PollSet.remove_of_inRange in_range
  have within : contents.set.InRange index :=
    ⟨in_range.1, in_range.2.trans corresponds.length_le⟩
  refine ⟨poll, removed, ?_⟩
  rw [SocketSet.removeSocket, if_pos within, removed]

theorem Agrees.changeRecord {set : SocketSet σ δ} {ledger next : Ledger σ δ}
    (corresponds : set.Corresponds getFd ledger) {index : Nat}
    {change : SocketRecord σ δ → SocketRecord σ δ} (in_range : set.InRange index)
    (changes : ∀ contents, set = some contents →
      Contents.Corresponds getFd { contents with set := contents.set.modifyAt index change } next) :
    Agrees getFd ledger next (SocketSet.changeRecord index change set) := by
  obtain _ | contents := set
  · exact absurd in_range.2.1 (Nat.not_le_of_lt in_range.1)
  · have within : contents.set.InRange index :=
      ⟨in_range.1, in_range.2.1.trans (Contents.Corresponds.length_le corresponds)⟩
    rw [SocketSet.changeRecord, if_pos within]
    exact changes contents rfl

theorem Agrees.setData {set : SocketSet σ δ} {ledger : Ledger σ δ}
    (corresponds : set.Corresponds getFd ledger) {index : Nat} (in_range : set.InRange index)
    (data : δ) :
    Agrees getFd ledger
      (ledger.replace index { ledger.occupant index with data := some data })
      (SocketSet.setData index data set) := by
  apply Agrees.changeRecord corresponds in_range
  rintro contents rfl
  have here := Contents.Corresponds.positions corresponds index in_range.1 in_range.2.1
  refine Contents.Corresponds.change corresponds index rfl rfl
    (Function.update_eq_self index _).symm
    rfl rfl (Contents.Corresponds.settable corresponds index) ?_
  exact ⟨here.socket, here.fd, here.present, here.events, fun _ given => given⟩

theorem Agrees.setMode {set : SocketSet σ δ} {ledger : Ledger σ δ}
    (corresponds : set.Corresponds getFd ledger) {index : Nat} (in_range : set.InRange index)
    (mode : WaitEventSet) :
    Agrees getFd ledger (ledger.setMode index mode) (SocketSet.setMode index mode set) := by
  obtain _ | contents := set
  · exact absurd in_range.2.1 (Nat.not_le_of_lt in_range.1)
  · have here := Contents.Corresponds.positions corresponds index in_range.1 in_range.2.1
    have settable := Contents.Corresponds.settable corresponds index
    have changed : contents.poll.setMode index mode =
        .ok (contents.poll.modifyAt index (·.setMode mode)) :=
      if_pos ⟨in_range.1, in_range.2.1⟩
    rw [SocketSet.setMode, SocketSet.changePoll, changed]
    have same : contents.set = contents.set.modifyAt index fun _ => contents.set.record index := by
      rw [SocketArray.modifyAt, Function.update_eq_self]
    show Contents.Corresponds getFd
      { contents with poll := contents.poll.modifyAt index (·.setMode mode) } _
    rw [same]
    refine Contents.Corresponds.change corresponds index rfl rfl rfl rfl rfl
      (settable.setMode mode) ?_
    exact ⟨here.socket, fun socket is => (Pollfd.setMode_fd _ _).trans (here.fd socket is),
      here.present, settable.setMode_events mode, here.data⟩

theorem Agrees.updateSocket {set : SocketSet σ δ} {ledger : Ledger σ δ}
    (corresponds : set.Corresponds getFd ledger) {index : Nat} (in_range : set.InRange index)
    (process : σ × Option δ → σ × Option δ) :
    Agrees getFd ledger (SetOperation.note getFd set ledger (.updateSocket index process))
      (SocketSet.updateSocket getFd index process set) := by
  obtain _ | contents := set
  · exact absurd in_range.2.1 (Nat.not_le_of_lt in_range.1)
  · obtain ⟨socket, is_socket⟩ := Option.isSome_iff_exists.mp in_range.2.2
    have here := Contents.Corresponds.positions corresponds index in_range.1 in_range.2.1
    have settable := Contents.Corresponds.settable corresponds index
    have within : contents.set.InRange index :=
      ⟨in_range.1, in_range.2.1.trans (Contents.Corresponds.length_le corresponds)⟩
    have in_poll : contents.poll.InRange index := ⟨in_range.1, in_range.2.1⟩
    have got : SocketSet.getSocket (some contents) index = some socket := is_socket
    have updated : SocketSet.updateSocket getFd index process (some contents) =
        .ok () (some
          { contents with
            poll :=
              { contents.poll.modifyAt index
                  ({ · with fd := getFd (process (socket,
                    SocketSet.getData (some contents) index)).1 }) with
                maxFd := max contents.poll.maxFd
                  (getFd (process (socket, SocketSet.getData (some contents) index)).1) }
            set := contents.set.modifyAt index fun record =>
              { record with
                socket := some (process (socket, SocketSet.getData (some contents) index)).1
                data := (process (socket, SocketSet.getData (some contents) index)).2 } }) := by
      simp only [SocketSet.updateSocket, bind, EStateM.bind, get, getThe, MonadStateOf.get,
        Protected.get_returned, got, SocketSet.changeRecord, if_pos within, SocketSet.changePoll,
        PollSet.replace, if_pos in_poll]
    rw [updated, SetOperation.note, got]
    refine Contents.Corresponds.change corresponds index rfl rfl rfl rfl rfl (settable.with_fd _) ?_
    refine ⟨rfl, ?_, rfl, here.events, fun _ given => given⟩
    intro other is_other
    cases is_other
    rfl

theorem Agrees.wait {set : SocketSet σ δ} {ledger : Ledger σ δ}
    (corresponds : set.Corresponds getFd ledger) (polled : Nat → EventsType) :
    Agrees getFd ledger (ledger.wait polled) (SocketSet.wait polled set) := by
  obtain _ | contents := set
  · exact corresponds
  · have length_le := Contents.Corresponds.length_le corresponds
    have count := Contents.Corresponds.count corresponds
    have intact : contents.dangling = false := Contents.Corresponds.intact corresponds
    have allocated : 0 < contents.poll.size := Contents.Corresponds.allocated corresponds
    refine ⟨intact, allocated, length_le, count, ?_, ?_⟩
    · intro position
      have settable := Contents.Corresponds.settable corresponds position
      show Pollfd.Settable (if 0 < position ∧ position ≤ contents.poll.length then _ else _)
      split_ifs
      · exact settable
      · exact settable
    · intro position positive within
      have here := Contents.Corresponds.positions corresponds position positive within
      show Matches getFd _ (if 0 < position ∧ position ≤ contents.poll.length then _ else _) _
      rw [if_pos ⟨positive, within⟩]
      exact ⟨here.socket, here.fd, here.present, here.events, here.data⟩

/-- `Reset` removes the sockets one by one from the last position on. -/
theorem SocketSet.resetFrom_eq (count : Nat) {contents : Contents σ δ}
    (length_eq : contents.poll.length = count) :
    ∃ next, SocketSet.resetFrom count contents = .ok next ∧ next.poll.length = 0 ∧
      next.poll.fds = contents.poll.fds ∧ next.poll.size = contents.poll.size ∧
      next.dangling = contents.dangling := by
  induction count generalizing contents with
  | zero => exact ⟨contents, rfl, length_eq, rfl, rfl, rfl⟩
  | succ count ih =>
      obtain ⟨poll, removed⟩ : ∃ poll, contents.poll.remove (count + 1) = .ok poll :=
        PollSet.remove_of_inRange ⟨Nat.succ_pos count, length_eq.ge⟩
      obtain ⟨_, poll_length, poll_fds⟩ := PollSet.remove_ok removed
      rw [if_neg (by omega)] at poll_fds
      rw [SocketSet.resetFrom, removed]
      obtain ⟨next, reset_eq, next_length, next_fds, next_size, next_dangling⟩ := @ih
        { contents with
          poll
          set :=
            if (contents.set.record (count + 1)).allocated then
              contents.set.modifyAt (count + 1) ({ · with socket := none })
            else contents.set }
        (show poll.length = count by omega)
      exact ⟨next, reset_eq, next_length, next_fds.trans poll_fds,
        next_size.trans (PollSet.remove_size removed), next_dangling⟩

theorem Agrees.reset {set : SocketSet σ δ} {ledger : Ledger σ δ}
    (corresponds : set.Corresponds getFd ledger) :
    Agrees getFd ledger ledger.reset (SocketSet.reset set) := by
  obtain _ | contents := set
  · exact rfl
  · obtain ⟨next, reset_eq, next_length, next_fds, next_size, next_dangling⟩ :=
      SocketSet.resetFrom_eq _ (rfl : contents.poll.length = contents.poll.length)
    rw [SocketSet.reset, reset_eq]
    refine ⟨next_dangling.trans (Contents.Corresponds.intact corresponds),
      next_size ▸ Contents.Corresponds.allocated corresponds,
      next_length.trans_le (Nat.zero_le _), next_length, ?_, ?_⟩
    · intro position
      rw [next_fds]
      exact Contents.Corresponds.settable corresponds position
    · intro position positive within
      exact absurd (within.trans_eq next_length) (Nat.not_le_of_lt positive)

/-! ## Runs -/

/-- A set is what its ledger says: the sockets are at their positions with their entries and the
data that they were given, every pair that was added is in the set or was removed, and a removal
returns the pair of the socket. -/
structure Tracked.Faithful (getFd : σ → Int) (self : Tracked σ δ) : Prop where
  intact : ¬self.set.Dangling
  count : self.set.count = self.ledger.count
  positions : ∀ position, 0 < position → position ≤ self.set.count →
    Matches getFd (self.set.record position) (self.set.entry position)
      (self.ledger.occupant position)
  balanced : self.ledger.Balanced
  removal : ∀ index, 0 < index → index ≤ self.set.count →
    ∃ socket data next, SocketSet.removeSocket index self.set = .ok (some socket, data) next ∧
      (self.ledger.occupant index).socket = some socket ∧
      ∀ given, (self.ledger.occupant index).data = some given → data = some given

theorem SocketSet.Corresponds.count {set : SocketSet σ δ} {ledger : Ledger σ δ}
    (corresponds : set.Corresponds getFd ledger) : set.count = ledger.count := by
  cases set with
  | none => exact Eq.symm corresponds
  | some contents => exact Contents.Corresponds.count corresponds

theorem Tracked.faithful {self : Tracked σ δ}
    (corresponds : self.set.Corresponds getFd self.ledger) (balanced : self.ledger.Balanced) :
    self.Faithful getFd := by
  obtain ⟨_ | contents, ledger⟩ := self
  · exact ⟨id, corresponds.symm,
      fun _ positive within => absurd within (Nat.not_le_of_lt positive), balanced,
        fun _ positive within => absurd within (Nat.not_le_of_lt positive)⟩
  · have positions := Contents.Corresponds.positions corresponds
    have intact : ¬contents.dangling = true := by
      rw [Contents.Corresponds.intact corresponds]
      exact Bool.false_ne_true
    refine ⟨intact, Contents.Corresponds.count corresponds, positions, balanced, ?_⟩
    intro index positive within
    have here := positions index positive within
    obtain ⟨poll, _, returned⟩ := SocketSet.removeSocket_eq corresponds ⟨positive, within⟩
    obtain ⟨socket, is_socket⟩ := Option.isSome_iff_exists.mp here.present
    exact ⟨socket, _, _, by rw [returned, here.socket, is_socket], is_socket, here.data⟩

/-- Every operation keeps the correspondence and the balance. -/
theorem Tracked.step_faithful {self : Tracked σ δ} {operation : SetOperation σ δ}
    (corresponds : self.set.Corresponds getFd self.ledger) (balanced : self.ledger.Balanced)
    (pre : operation.Pre getFd self.set) :
    (self.step getFd operation).set.Corresponds getFd (self.step getFd operation).ledger ∧
      (self.step getFd operation).ledger.Balanced := by
  have agrees : Agrees getFd self.ledger (operation.note getFd self.set self.ledger)
      (operation.run getFd self.set) := by
    cases operation with
    | add socket allocated data mode => exact Agrees.add corresponds pre allocated data mode
    | removeSocket index =>
        obtain ⟨_ | contents, ledger⟩ := self
        · exact absurd pre.2.1 (Nat.not_le_of_lt pre.1)
        · obtain ⟨poll, removed, returned⟩ :=
            SocketSet.removeSocket_eq corresponds ⟨pre.1, pre.2.1⟩
          show Agrees getFd ledger _ (EStateM.bind (SocketSet.removeSocket index) _ _)
          rw [EStateM.bind, returned]
          exact Contents.Corresponds.remove corresponds removed
    | setData index data => exact Agrees.setData corresponds pre data
    | setMode index mode => exact Agrees.setMode corresponds pre mode
    | updateSocket index process => exact Agrees.updateSocket corresponds pre process
    | reset => exact Agrees.reset corresponds
    | wait polled =>
        have waited := Agrees.wait corresponds polled
        show Agrees getFd self.ledger _ (EStateM.bind (SocketSet.wait polled) _ _)
        rw [EStateM.bind]
        cases done : SocketSet.wait polled self.set with
        | ok count set =>
            rw [done] at waited
            exact waited
        | error exn set =>
            rw [done] at waited
            exact waited
  have noted : (operation.note getFd self.set self.ledger).Balanced := by
    have count := SocketSet.Corresponds.count corresponds
    cases operation with
    | add socket allocated data mode => exact balanced.add _
    | removeSocket index => exact balanced.remove pre.1 (count ▸ pre.2.1)
    | setData index data => exact balanced.replace pre.1 (count ▸ pre.2.1) _
    | setMode index mode => exact balanced.setMode index mode
    | updateSocket index process =>
        rw [SetOperation.note]
        cases self.set.getSocket index with
        | none => exact balanced
        | some socket => exact balanced.replace pre.1 (count ▸ pre.2.1) _
    | reset => exact balanced.reset
    | wait polled => exact balanced
  rw [Tracked.step]
  cases done : operation.run getFd self.set with
  | ok _ set =>
      rw [done] at agrees
      exact ⟨agrees, noted⟩
  | error _ set =>
      rw [done] at agrees
      exact ⟨agrees, balanced⟩

/-- After every run a set is what its ledger says. -/
theorem faithful_of_run {operations : List (SetOperation σ δ)} {state : Tracked σ δ}
    (run : Run (Tracked.Steps getFd) {} operations state) : state.Faithful getFd := by
  obtain ⟨corresponds, balanced⟩ := run.invariant
    (fun state => state.set.Corresponds getFd state.ledger ∧ state.ledger.Balanced)
    ⟨rfl, Ledger.balanced_empty⟩
    fun holds stepped => stepped.2 ▸ Tracked.step_faithful holds.1 holds.2 stepped.1
  exact Tracked.faithful corresponds balanced

/-- A socket is added with data, another one without, and the first one is removed. -/
private def reuse : List (SetOperation Nat Nat) :=
  [.add 5 false (some 7) fun _ => true, .removeSocket 1, .add 6 false none fun _ => true]

private def follow (operations : List (SetOperation Nat Nat)) : Tracked Nat Nat :=
  operations.foldl (Tracked.step fun socket => (socket : Int)) {}

private theorem run_reuse :
    Run (Tracked.Steps fun socket : Nat => (socket : Int)) {} reuse (follow reuse) :=
  run_of_allPossible (by decide)

theorem faithful_reuse : (follow reuse).Faithful fun socket : Nat => (socket : Int) :=
  faithful_of_run run_reuse

/-- A socket that was added without data is removed with the data of an earlier occupant. -/
theorem data_of_earlier_occupant :
    ∃ operations state, Run (Tracked.Steps fun socket : Nat => (socket : Int)) {} operations state ∧
      state.set.count = 1 ∧ (state.ledger.occupant 1).pair = (some 6, none) ∧
      ∃ next, SocketSet.removeSocket 1 state.set = .ok (some 6, some 7) next :=
  ⟨reuse, follow reuse, run_reuse, rfl, rfl, _, rfl⟩

end Net
end AdaWebServer

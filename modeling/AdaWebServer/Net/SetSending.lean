import AdaWebServer.Foundations.Loops
import AdaWebServer.Net.PollEvents

/-!
# Sending to a set of sockets

The same data is sent to several sockets, as far as each of them can take it.  The sockets that have
not got all of it are in a poll set, and two arrays say which socket is at a position of the set and
what it is to get next.

A socket is named by its position in the list that it comes from.  Sending a part of the data to one
socket blocks and succeeds.
-/

namespace AdaWebServer
namespace Net

open Http2 (Octets Exn)
open Slots

/-- What `Output_Space` returns: no space is known, or some. -/
abbrev OutputSpace := { space : Int // -1 ≤ space }

/-- What the system reports at one call of `Wait` and at the turns that follow it. -/
structure Round where
  polled : Nat → EventsType
  space : Nat → OutputSpace

/-- The variables of `Send`, and what has been sent to which socket. -/
structure Sending where
  set : PollSet
  socks : Nat → Nat
  index : Nat → Nat
  sockIndex : Nat := 1
  sent : List (Nat × Octets) := []

/-- What a socket has got. -/
def received (sent : List (Nat × Octets)) (sock : Nat) : Octets :=
  (sent.filter (·.1 = sock)).flatMap (·.2)

/-- How often something has been sent to a socket. -/
def visits (sent : List (Nat × Octets)) (sock : Nat) : Nat := sent.countP (·.1 = sock)

namespace Sending

/-- `Chunk_Size`. -/
def chunkSize (space : OutputSpace) : Nat :=
  if space.1 = -1 then 100 * 1024 else space.1.toNat

/-- `Wait_Events`. -/
def waitEvents : WaitEventSet
  | .input => false
  | .output => true

/-- What `Send` starts with. -/
def start (sockets : List Int) : Except Exn Sending := do
  let set ← sockets.foldlM (fun set fd => set.add fd waitEvents) (PollSet.ofSize sockets.length)
  return { set, socks := id, index := fun _ => 1 }

/-- `Wait`, before the entries with events are looked for. -/
def wait (polled : Nat → EventsType) (self : Sending) : Sending :=
  { self with set := (self.set.wait polled).1, sockIndex := 1 }

/-- The turn for one entry with events. -/
def serve (data : Octets) (space : OutputSpace) (self : Sending) : Except Exn Sending :=
  let sockIndex := self.set.next self.sockIndex
  if self.set.size < sockIndex then .error .constraintError
  else
    let last := min (self.index sockIndex + chunkSize space) data.length
    let sent := self.sent ++
      [(self.socks sockIndex, (data.take last).drop (self.index sockIndex - 1))]
    let index := Function.update self.index sockIndex (last + 1)
    if index sockIndex > data.length then do
      let moved := sockIndex ≠ self.set.length
      let set ← self.set.remove sockIndex
      return {
        set, sockIndex, sent
        socks := if moved then moveTo self.socks sockIndex self.set.length else self.socks
        index := if moved then moveTo index sockIndex self.set.length else index }
    else .ok { self with index, sent, sockIndex := sockIndex + 1 }

/-- Some turns for entries with events. -/
def serveTimes (data : Octets) (space : Nat → OutputSpace) : Nat → Sending → Except Exn Sending
  | 0, self => .ok self
  | turns + 1, self => serveTimes data space turns self >>= serve data (space turns)

/-- `Wait`, and a turn for each entry with events. -/
def turn (data : Octets) (round : Round) (self : Sending) : Except Exn Sending :=
  serveTimes data round.space (self.set.wait round.polled).2 (self.wait round.polled)

/-- The loop of `Send`, which has gone some rounds. -/
def loopTurn (data : Octets) (rounds : Nat → Round) (state : Nat × Sending) :
    Trial Exn (Turn (Nat × Sending) Sending) :=
  match turn data (rounds state.1) state.2 with
  | .error exn => .error (.raised exn)
  | .ok next =>
      if next.set.length = 0 then .ok (.leave next) else .ok (.again (state.1 + 1, next))

/-- `Send`, for at most a number of rounds: what has been sent. -/
def send (sockets : List Int) (data : Octets) (rounds : Nat → Round) (times : Nat) :
    Trial Exn (List (Nat × Octets)) :=
  if sockets.length = 0 then .ok []
  else
    match start sockets with
    | .error exn => .error (.raised exn)
    | .ok self => Sending.sent <$> turns (loopTurn data rounds) times (0, self)

/-- What some rounds have led to. -/
def after (sockets : List Int) (data : Octets) (rounds : Nat → Round) : Nat → Except Exn Sending
  | 0 => start sockets
  | times + 1 => after sockets data rounds times >>= turn data (rounds times)

/-- How many entries of a socket a call of `Wait` finds with events. -/
def eventsOf (polled : Nat → EventsType) (self : Sending) (sock : Nat) : Nat :=
  ((List.range self.set.length).filter fun position =>
    self.socks (position + 1) = sock ∧ polled (position + 1) ≠ ∅).length

/-- How often a socket has been found with events. -/
def timesFound (sockets : List Int) (data : Octets) (rounds : Nat → Round) (sock : Nat) : Nat → Nat
  | 0 => 0
  | times + 1 => timesFound sockets data rounds sock times +
      match after sockets data rounds times with
      | .ok self => self.eventsOf (rounds times).polled sock
      | .error _ => 0

/-! ## The places -/

/-- What is at one position of the poll set and of the two arrays. -/
structure Place where
  pollfd : Pollfd
  sock : Nat
  index : Nat

/-- The place at a position. -/
def place (self : Sending) (position : Nat) : Place :=
  ⟨self.set.fds position, self.socks position, self.index position⟩

namespace Place

/-- `Last`. -/
def last (data : Octets) (space : OutputSpace) (self : Place) : Nat :=
  min (self.index + chunkSize space) data.length

/-- The part of the data that is sent. -/
def slice (data : Octets) (space : OutputSpace) (self : Place) : Octets :=
  (data.take (self.last data space)).drop (self.index - 1)

end Place

/-- The place is the one of a socket that has got the data before its index, and has been sent something
less often than its index says. -/
structure Stands (sockets : List Int) (data : Octets) (sent : List (Nat × Octets)) (place : Place) :
    Prop where
  positive : 0 < place.sock
  descriptor : sockets[place.sock - 1]? = some place.pollfd.fd
  progress : received sent place.sock = data.take (place.index - 1)
  visited : visits sent place.sock < place.index
  unfinished : place.index ≤ max 1 data.length

/-- The two arrays are aligned with the positions of the poll set, and the sockets that are not in the
set have got all of the data. -/
structure Aligned (sockets : List Int) (data : Octets) (sending : Sending) : Prop where
  at_position : ∀ position, 0 < position → position ≤ sending.set.length →
    Stands sockets data sending.sent (sending.place position)
  distinct : (held sending.socks sending.set.length).Nodup
  complete : ∀ sock, 0 < sock → sock ≤ sockets.length →
    sock ∉ held sending.socks sending.set.length → received sending.sent sock = data

variable {sockets : List Int} {data : Octets} {space : OutputSpace} {self next : Sending}

theorem received_append (sent : List (Nat × Octets)) (sock other : Nat) (part : Octets) :
    received (sent ++ [(sock, part)]) other =
      received sent other ++ if sock = other then part else [] := by
  rw [received, received, List.filter_append, List.flatMap_append, List.filter_singleton]
  by_cases same : sock = other <;> simp [same]

theorem visits_append (sent : List (Nat × Octets)) (sock other : Nat) (part : Octets) :
    visits (sent ++ [(sock, part)]) other = visits sent other + if sock = other then 1 else 0 := by
  rw [visits, visits, List.countP_append, List.countP_singleton]
  by_cases same : sock = other <;> simp [same]

/-- What happens to other sockets does not matter to a place. -/
theorem Stands.other {sent : List (Nat × Octets)} {place : Place} {sock : Nat} {part : Octets}
    (stands : Stands sockets data sent place) (different : place.sock ≠ sock) :
    Stands sockets data (sent ++ [(sock, part)]) place where
  positive := stands.positive
  descriptor := stands.descriptor
  progress := by rw [received_append, if_neg different.symm, List.append_nil, stands.progress]
  visited := by
    rw [visits_append, if_neg different.symm]
    exact stands.visited
  unfinished := stands.unfinished

/-- The socket at a place has got the data up to the last octet that is sent to it. -/
theorem Stands.received_slice {sent : List (Nat × Octets)} {place : Place}
    (stands : Stands sockets data sent place) :
    received (sent ++ [(place.sock, place.slice data space)]) place.sock =
      data.take (place.last data space) := by
  have unfinished := stands.unfinished
  have before : place.index - 1 ≤ place.last data space := by
    rw [Place.last]
    omega
  rw [received_append, if_pos rfl, stands.progress, Place.slice,
    ← List.take_append_drop (place.index - 1) (data.take (place.last data space)), List.take_take,
    Nat.min_eq_left before, List.drop_left' (by
      rw [List.length_take, Nat.min_eq_left]
      omega)]

/-! ## One turn -/

/-- A turn serves the place after some positions: the place is removed, or its index moves on. -/
structure Serves (data : Octets) (space : OutputSpace) (passed : Nat) (before after : Sending) :
    Prop where
  sent_eq : after.sent = before.sent ++
    [((before.place (passed + 1)).sock, (before.place (passed + 1)).slice data space)]
  outcome :
    (data.length ≤ (before.place (passed + 1)).last data space ∧ after.sockIndex = passed + 1 ∧
      after.set.length = before.set.length - 1 ∧
      ∀ position ≤ before.set.length - 1,
        after.place position = moveTo before.place (passed + 1) before.set.length position) ∨
    ((before.place (passed + 1)).last data space < data.length ∧ after.sockIndex = passed + 1 + 1 ∧
      after.set = before.set ∧
      after.place = Function.update before.place (passed + 1)
        { before.place (passed + 1) with
          index := (before.place (passed + 1)).last data space + 1 })

/-- An array is compacted, whatever the removed element has been changed to. -/
private theorem compacted {α : Type} {array changed : Nat → α} {passed length : Nat}
    (same : ∀ position, position ≠ passed + 1 → changed position = array position)
    {position : Nat} (below : position ≤ length - 1) :
    (if passed + 1 ≠ length then moveTo changed (passed + 1) length else changed) position =
      moveTo array (passed + 1) length position := by
  by_cases last : passed + 1 = length
  · have other : position ≠ passed + 1 := by omega
    rw [if_neg (not_not_intro last), moveTo, Function.update_of_ne other, same position other]
  · rw [if_pos last, moveTo, moveTo, Function.update_apply, Function.update_apply,
      same length (Ne.symm last)]
    split_ifs with here
    · rfl
    · exact same position here

/-- A turn does not raise if there is an entry with events left. -/
theorem serve_ok {passed : Nat} (next_eq : self.set.next self.sockIndex = passed + 1)
    (within : passed < self.set.length) :
    ∃ next, serve data space self = .ok next ∧ Serves data space passed self next := by
  have in_range : self.set.InRange (passed + 1) := ⟨Nat.succ_pos passed, within⟩
  have allocated : ¬self.set.size < passed + 1 := by
    have := self.set.length_le
    omega
  have last_eq : min (self.index (passed + 1) + chunkSize space) data.length =
      (self.place (passed + 1)).last data space := rfl
  obtain ⟨set, removed⟩ := PollSet.remove_of_inRange in_range
  simp only [serve, next_eq, if_neg allocated, last_eq, Function.update_self, removed]
  by_cases all : data.length < (self.place (passed + 1)).last data space + 1
  · rw [if_pos (by exact all)]
    refine ⟨_, rfl, rfl, .inl ⟨Nat.lt_succ_iff.1 all, rfl, (PollSet.remove_ok removed).2.1, ?_⟩⟩
    intro position below
    have below' : position ≤ set.length := below.trans_eq (PollSet.remove_ok removed).2.1.symm
    have moved : moveTo self.place (passed + 1) self.set.length position =
        ⟨moveTo self.set.fds (passed + 1) self.set.length position,
          moveTo self.socks (passed + 1) self.set.length position,
          moveTo self.index (passed + 1) self.set.length position⟩ := by
      simp only [moveTo, Function.update_apply]
      split_ifs <;> rfl
    rw [moved, ← PollSet.remove_fds removed below', ← compacted (fun _ _ => rfl) below,
      ← compacted (fun other different => Function.update_of_ne different
        ((self.place (passed + 1)).last data space + 1) self.index) below]
    rfl
  · rw [if_neg (by exact all)]
    refine ⟨_, rfl, rfl, .inr ⟨Nat.lt_of_succ_le (Nat.le_of_not_lt all), rfl, rfl, ?_⟩⟩
    funext position
    rw [Function.update_apply]
    by_cases same : position = passed + 1
    · rw [if_pos same]
      subst same
      simp only [place, Function.update_self]
    · rw [if_neg same]
      simp only [place, Function.update_of_ne same]

/-- The places up to the length of the set. -/
def places (self : Sending) : Multiset Place := held self.place self.set.length

/-- The sockets with events at the positions that have not been passed. -/
def due (self : Sending) (passed : Nat) : Multiset Nat :=
  ((heldAfter self.place passed self.set.length).filter (·.pollfd.HasEvents)).map Place.sock

/-- What a turn makes of the place that it serves. -/
def Place.served (data : Octets) (space : OutputSpace) (self : Place) : Multiset Place :=
  if data.length ≤ self.last data space then 0 else {{ self with index := self.last data space + 1 }}

variable {passed : Nat}

theorem mem_places {place : Place} :
    place ∈ self.places ↔
      ∃ position, 0 < position ∧ position ≤ self.set.length ∧ self.place position = place :=
  mem_held

theorem places_socks : self.places.map Place.sock = held self.socks self.set.length :=
  (held_map self.place Place.sock self.set.length).symm

/-- A turn changes only the place that it serves. -/
theorem Serves.places_eq (serves : Serves data space passed self next)
    (within : passed < self.set.length) :
    ∃ rest, self.places = self.place (passed + 1) ::ₘ rest ∧
      next.places = (self.place (passed + 1)).served data space + rest := by
  obtain ⟨all, -, length_eq, place_eq⟩ | ⟨part, -, set_eq, place_eq⟩ := serves.outcome
  · refine ⟨next.places, ?_, ?_⟩
    · rw [places, places, length_eq, held_congr fun position _ below => place_eq position below,
        held_moveTo (Nat.succ_pos passed) within]
    · rw [Place.served, if_pos all, zero_add]
  · have mem : self.place (passed + 1) ∈ self.places :=
      mem_places.2 ⟨_, Nat.succ_pos passed, within, rfl⟩
    obtain ⟨rest, rest_eq⟩ := Multiset.exists_cons_of_mem mem
    refine ⟨rest, rest_eq, ?_⟩
    have updated := @held_update _ self.place _ _ (Nat.succ_pos passed) within
      { self.place (passed + 1) with index := (self.place (passed + 1)).last data space + 1 }
    rw [show held self.place self.set.length = _ from rest_eq, Multiset.cons_swap,
      Multiset.cons_inj_right] at updated
    rw [Place.served, if_neg (Nat.not_le_of_lt part), places, set_eq, place_eq, updated]
    rfl

/-- A turn serves a socket with events, and leaves the others. -/
theorem Serves.due_eq (serves : Serves data space passed self next)
    (within : passed < self.set.length) (events : (self.set.fds (passed + 1)).HasEvents) :
    ∃ later, next.sockIndex = later + 1 ∧
      self.due passed = (self.place (passed + 1)).sock ::ₘ next.due later := by
  obtain ⟨-, index_eq, length_eq, place_eq⟩ | ⟨-, index_eq, set_eq, place_eq⟩ := serves.outcome
  · refine ⟨passed, index_eq, ?_⟩
    have after_eq : heldAfter next.place passed next.set.length =
        heldAfter (moveTo self.place (passed + 1) self.set.length) passed (self.set.length - 1) := by
      rw [length_eq]
      refine held_congr fun position _ below => place_eq _ (by omega)
    rw [due, due, after_eq, ← heldAfter_moveTo self.place within,
      Multiset.filter_cons_of_pos _ (by exact events), Multiset.map_cons]
  · refine ⟨passed + 1, index_eq, ?_⟩
    rw [due, due, set_eq, place_eq, heldAfter_update_skipped _ _ le_rfl,
      heldAfter_skip self.place within, Multiset.filter_cons_of_pos _ (by exact events),
      Multiset.map_cons]

/-- A turn keeps the arrays aligned. -/
theorem Aligned.serves (aligned : Aligned sockets data self)
    (serves : Serves data space passed self next) (within : passed < self.set.length) :
    Aligned sockets data next := by
  obtain ⟨rest, before_eq, after_eq⟩ := serves.places_eq within
  have stands := aligned.at_position (passed + 1) (Nat.succ_pos passed) within
  have distinct := aligned.distinct
  rw [← places_socks, before_eq, Multiset.map_cons, Multiset.nodup_cons] at distinct
  have others : ∀ place ∈ rest, Stands sockets data next.sent place := by
    intro place among
    have mem : place ∈ self.places := before_eq ▸ Multiset.mem_cons_of_mem among
    obtain ⟨position, positive, below, rfl⟩ := mem_places.1 mem
    rw [serves.sent_eq]
    refine (aligned.at_position position positive below).other fun same => distinct.1 ?_
    exact same ▸ Multiset.mem_map_of_mem Place.sock among
  constructor
  case at_position =>
    intro position positive below
    have mem : next.place position ∈ next.places := mem_places.2 ⟨position, positive, below, rfl⟩
    rw [after_eq, Multiset.mem_add] at mem
    obtain served | among := mem
    · rw [Place.served] at served
      split_ifs at served with all
      · exact absurd served (Multiset.notMem_zero _)
      · rw [Multiset.mem_singleton.1 served]
        have visited := stands.visited
        have unfinished := stands.unfinished
        have last_eq : (self.place (passed + 1)).last data space =
            min ((self.place (passed + 1)).index + chunkSize space) data.length := rfl
        refine ⟨stands.positive, stands.descriptor, ?_, ?_, ?_⟩
        · rw [serves.sent_eq]
          exact stands.received_slice
        · rw [serves.sent_eq, visits_append, if_pos rfl]
          show visits self.sent (self.place (passed + 1)).sock + 1 <
            (self.place (passed + 1)).last data space + 1
          omega
        · show (self.place (passed + 1)).last data space + 1 ≤ max 1 data.length
          omega
    · exact others _ among
  case distinct =>
    rw [← places_socks, after_eq, Multiset.map_add, Place.served]
    split_ifs
    · rw [Multiset.map_zero, zero_add]
      exact distinct.2
    · rw [Multiset.map_singleton, Multiset.singleton_add, Multiset.nodup_cons]
      exact distinct
  case complete =>
    intro sock positive below absent
    rw [← places_socks, after_eq, Multiset.map_add, Multiset.mem_add, not_or] at absent
    by_cases this : sock = (self.place (passed + 1)).sock
    · subst this
      rw [Place.served] at absent
      split_ifs at absent with all
      · rw [serves.sent_eq, stands.received_slice]
        exact List.take_of_length_le all
      · exact absurd (Multiset.mem_singleton_self _) absent.1
    · rw [serves.sent_eq, received_append, if_neg (Ne.symm this), List.append_nil]
      refine aligned.complete sock positive below ?_
      rw [← places_socks, before_eq, Multiset.map_cons, Multiset.mem_cons, not_or]
      exact ⟨this, absent.2⟩

/-! ## The turns of a round -/

/-- `Wait` counts the sockets with events. -/
theorem card_due : (self.due passed).card = self.set.readyAfter passed := by
  rw [due, Multiset.card_map, ← Multiset.countP_eq_card_filter, PollSet.readyAfter]
  rw [show heldAfter self.set.fds passed self.set.length =
    (heldAfter self.place passed self.set.length).map Place.pollfd from
      held_map (fun position => self.place (passed + position)) Place.pollfd _,
    Multiset.countP_map, Multiset.countP_eq_card_filter]

/-- A turn finds the next socket with events, if there is one. -/
theorem serve_due {skipped : Nat} (aligned : Aligned sockets data self)
    (index_eq : self.sockIndex = skipped + 1) (some_due : 0 < (self.due skipped).card) :
    ∃ next later sock, serve data space self = .ok next ∧ Aligned sockets data next ∧
      next.sockIndex = later + 1 ∧ self.due skipped = sock ::ₘ next.due later ∧
      ∀ other, visits next.sent other = visits self.sent other + if sock = other then 1 else 0 := by
  rw [card_due] at some_due
  obtain ⟨passed, next_eq, within, events, -⟩ := PollSet.next_ready some_due
  obtain ⟨next, served, serves⟩ :=
    @serve_ok data space self passed (by rw [index_eq, next_eq]) within
  obtain ⟨later, later_eq, due_eq⟩ := serves.due_eq within events
  have further : skipped ≤ passed :=
    Nat.le_of_succ_le_succ ((self.set.le_next (skipped + 1)).trans_eq next_eq)
  have skips : self.due skipped = self.due passed := by
    refine congrArg (Multiset.map Place.sock) ?_
    refine (heldAfter_filter_skip self.place (·.pollfd.HasEvents) further within.le ?_).symm
    exact fun position above below => PollSet.next_skips above (by omega)
  refine ⟨next, later, _, served, aligned.serves serves within, later_eq, skips.trans due_eq, ?_⟩
  intro other
  rw [serves.sent_eq, visits_append]

/-- Turns serve the sockets with events, one after another. -/
theorem serveTimes_ok {spaces : Nat → OutputSpace} (aligned : Aligned sockets data self)
    (index_eq : self.sockIndex = 1) {turns : Nat} (enough : turns ≤ (self.due 0).card) :
    ∃ next later, serveTimes data spaces turns self = .ok next ∧ Aligned sockets data next ∧
      next.sockIndex = later + 1 ∧ (next.due later).card + turns = (self.due 0).card ∧
      ∀ sock, visits next.sent sock + (next.due later).count sock =
        visits self.sent sock + (self.due 0).count sock := by
  induction turns with
  | zero => exact ⟨self, 0, rfl, aligned, index_eq, rfl, fun _ => rfl⟩
  | succ turns ih =>
      obtain ⟨middle, skipped, ran, middle_aligned, middle_eq, left, accounts⟩ :=
        ih (Nat.le_of_succ_le enough)
      obtain ⟨next, later, served, one, next_aligned, next_eq, due_eq, visits_eq⟩ :=
        @serve_due sockets data (spaces turns) middle skipped middle_aligned middle_eq (by omega)
      refine ⟨next, later, ?_, next_aligned, next_eq, ?_, ?_⟩
      · rw [serveTimes, ran]
        exact one
      · rw [due_eq, Multiset.card_cons] at left
        omega
      · intro sock
        rw [← accounts, due_eq, Multiset.count_cons, visits_eq]
        simp only [eq_comm]
        omega

/-- The sockets that `Wait` finds with events are those that are due after it. -/
theorem count_due_wait (polled : Nat → EventsType) (self : Sending) (sock : Nat) :
    ((self.wait polled).due 0).count sock = self.eventsOf polled sock := by
  have entry : ∀ position < self.set.length,
      (((self.wait polled).place (position + 1)).pollfd.HasEvents ↔ polled (position + 1) ≠ ∅) := by
    intro position below
    show (ite _ _ _ : Pollfd).revents ≠ ∅ ↔ _
    rw [if_pos ⟨Nat.succ_pos position, below⟩]
  rw [due, heldAfter_zero, held, Multiset.filter_map, Multiset.map_map, Multiset.count_map,
    Multiset.filter_filter, eventsOf, ← Multiset.coe_card, ← Multiset.filter_coe]
  refine congrArg Multiset.card (Multiset.filter_congr fun position among => ?_)
  have below : position < self.set.length := Multiset.mem_range.1 among
  exact and_congr eq_comm (entry position below)

theorem Aligned.wait (aligned : Aligned sockets data self) (polled : Nat → EventsType) :
    Aligned sockets data (self.wait polled) where
  at_position := by
    intro position positive below
    have stands := aligned.at_position position positive below
    refine ⟨stands.positive, stands.descriptor.trans (congrArg some ?_), stands.progress,
      stands.visited, stands.unfinished⟩
    show _ = (ite _ _ _ : Pollfd).fd
    rw [if_pos ⟨positive, below⟩]
    rfl
  distinct := aligned.distinct
  complete := aligned.complete

/-- After `Wait` there are as many turns as sockets that are due. -/
theorem wait_turns (polled : Nat → EventsType) (self : Sending) :
    ((self.wait polled).due 0).card = (self.set.wait polled).2 := by
  rw [card_due, PollSet.wait_count]
  rfl

/-- A round serves every socket that is found with events once. -/
theorem turn_ok {round : Round} (aligned : Aligned sockets data self) :
    ∃ next, turn data round self = .ok next ∧ Aligned sockets data next ∧
      ∀ sock, visits next.sent sock = visits self.sent sock + self.eventsOf round.polled sock := by
  obtain ⟨next, later, ran, next_aligned, -, left, accounts⟩ :=
    serveTimes_ok (aligned.wait round.polled) rfl (wait_turns round.polled self).ge
  refine ⟨next, ran, next_aligned, fun sock => ?_⟩
  rw [wait_turns] at left
  have none_left : next.due later = 0 := Multiset.card_eq_zero.1 (by omega)
  have account := accounts sock
  rw [none_left, Multiset.count_zero, count_due_wait] at account
  exact account

/-! ## The rounds -/

/-- The entries of a set have the descriptors of the first sockets. -/
private def Listed (sockets : List Int) (set : PollSet) : Prop :=
  ∀ position, 0 < position → position ≤ set.length →
    sockets[position - 1]? = some (set.fds position).fd

private theorem listed_ofSize (sockets : List Int) (size : Nat) :
    Listed sockets (PollSet.ofSize size) :=
  fun _ positive below => absurd (positive.trans_le below) (Nat.lt_irrefl 0)

/-- The descriptors of sockets are added one after another. -/
private theorem add_all {added rest : List Int} {set : PollSet} (listed : Listed (added ++ rest) set)
    (length_eq : set.length = added.length) (room : set.length + rest.length ≤ set.size) :
    ((∃ fd ∈ rest, fd < 0) →
      rest.foldlM (fun set fd => set.add fd waitEvents) set = .error .socketError) ∧
    ((∀ fd ∈ rest, 0 ≤ fd) → ∃ next,
      rest.foldlM (fun set fd => set.add fd waitEvents) set = .ok next ∧
        Listed (added ++ rest) next ∧ next.length = set.length + rest.length) := by
  induction rest generalizing added set with
  | nil =>
      refine ⟨?_, fun _ => ⟨set, rfl, listed, rfl⟩⟩
      rintro ⟨_, among, _⟩
      exact absurd among List.not_mem_nil
  | cons fd rest ih =>
      have space : ¬set.size ≤ set.length := by
        rw [List.length_cons] at room
        omega
      rw [List.foldlM_cons]
      by_cases negative : fd < 0
      · rw [PollSet.add, dif_neg space, if_pos negative]
        exact ⟨fun _ => rfl, fun all => absurd (all fd List.mem_cons_self) (not_le.2 negative)⟩
      · have added_ok : ∃ middle, set.add fd waitEvents = .ok middle ∧ middle.size = set.size := by
          rw [PollSet.add, dif_neg space, if_neg negative]
          exact ⟨_, rfl, rfl⟩
        obtain ⟨middle, middle_eq, size_eq⟩ := added_ok
        obtain ⟨middle_length, fds_eq⟩ := PollSet.add_ok middle_eq
        have middle_listed : Listed ((added ++ [fd]) ++ rest) middle := by
          intro position positive below
          rw [List.append_assoc, List.singleton_append, fds_eq, Function.update_apply]
          split_ifs with last
          · rw [last, Pollfd.setMode_fd, Nat.add_sub_cancel, length_eq,
              List.getElem?_append_right le_rfl, Nat.sub_self, List.getElem?_cons_zero]
          · exact listed position positive (by omega)
        have later := ih middle_listed
          (by rw [middle_length, length_eq, List.length_append, List.length_singleton])
          (by rw [List.length_cons] at room; omega)
        rw [List.append_assoc, List.singleton_append] at later
        rw [middle_eq]
        refine ⟨?_, fun all => ?_⟩
        · rintro ⟨bad, among, bad_neg⟩
          refine later.1 ⟨bad, ?_, bad_neg⟩
          exact (List.mem_cons.1 among).resolve_left fun same => negative (same ▸ bad_neg)
        · obtain ⟨next, ran, next_listed, next_length⟩ :=
            later.2 fun other among => all other (List.mem_cons_of_mem _ among)
          refine ⟨next, ran, next_listed, ?_⟩
          rw [next_length, middle_length, List.length_cons]
          omega

theorem start_refused (wrong : ∃ fd ∈ sockets, fd < 0) : start sockets = .error .socketError := by
  have refused := (@add_all [] sockets (PollSet.ofSize sockets.length)
    (listed_ofSize _ _) rfl (Nat.zero_add _).le).1 wrong
  rw [start, refused]
  rfl

/-- The arrays are aligned from the start, and nothing has been sent. -/
theorem start_ok (right : ∀ fd ∈ sockets, 0 ≤ fd) (data : Octets) :
    ∃ self, start sockets = .ok self ∧ Aligned sockets data self ∧
      self.set.length = sockets.length ∧ self.sent = [] := by
  obtain ⟨set, added, listed, length_eq⟩ := (@add_all [] sockets (PollSet.ofSize sockets.length)
    (listed_ofSize _ _) rfl (Nat.zero_add _).le).2 right
  have length_eq : set.length = sockets.length := length_eq.trans (Nat.zero_add _)
  refine ⟨{ set, socks := id, index := fun _ => 1 }, by rw [start, added]; rfl, ?_, length_eq, rfl⟩
  constructor
  case at_position =>
    exact fun position positive below =>
      ⟨positive, listed position positive below, rfl, Nat.one_pos, le_max_left 1 data.length⟩
  case distinct =>
    refine (Multiset.nodup_range set.length).map fun _ _ same => ?_
    exact Nat.succ_injective same
  case complete =>
    intro sock positive below absent
    exact absurd (mem_held.2 ⟨sock, positive, below.trans_eq length_eq.symm, rfl⟩) absent

/-- Whatever the rounds report, they do not raise, the arrays are aligned after them, and each socket
has been sent something as often as it has been found. -/
theorem after_ok (right : ∀ fd ∈ sockets, 0 ≤ fd) (data : Octets) (rounds : Nat → Round)
    (times : Nat) :
    ∃ self, after sockets data rounds times = .ok self ∧ Aligned sockets data self ∧
      ∀ sock, visits self.sent sock = timesFound sockets data rounds sock times := by
  induction times with
  | zero =>
      obtain ⟨self, started, aligned, -, sent_eq⟩ := start_ok right data
      exact ⟨self, started, aligned, fun sock => by rw [sent_eq]; rfl⟩
  | succ times ih =>
      obtain ⟨self, ran, aligned, visits_eq⟩ := ih
      obtain ⟨next, turned, next_aligned, next_visits⟩ :=
        @turn_ok sockets data self (rounds times) aligned
      refine ⟨next, by rw [after, ran]; exact turned, next_aligned, fun sock => ?_⟩
      rw [next_visits, visits_eq, timesFound, ran]

/-- The set is empty once every socket has been found as often as there are octets. -/
theorem Aligned.empty (aligned : Aligned sockets data self)
    (often : ∀ sock, 0 < sock → sock ≤ sockets.length →
      max 1 data.length ≤ visits self.sent sock) : self.set.length = 0 := by
  by_contra some_left
  have stands := aligned.at_position 1 Nat.one_pos (Nat.one_le_iff_ne_zero.2 some_left)
  have listed := (List.getElem?_eq_some_iff.1 stands.descriptor).1
  have enough := often (self.place 1).sock stands.positive (by omega)
  have visited := stands.visited
  have unfinished := stands.unfinished
  omega

/-- When the set is empty, every socket has got the data. -/
theorem Aligned.received_eq (aligned : Aligned sockets data self) (empty : self.set.length = 0)
    {sock : Nat} (positive : 0 < sock) (below : sock ≤ sockets.length) :
    received self.sent sock = data := by
  refine aligned.complete sock positive below ?_
  rw [empty]
  exact Multiset.notMem_zero sock

/-- The loop leaves with the first set that is empty after a round, and does not end if there is
none. -/
theorem turns_loopTurn (right : ∀ fd ∈ sockets, 0 ≤ fd) (rounds : Nat → Round) {times gone : Nat}
    (reached : after sockets data rounds gone = .ok self) :
    (∃ last final, gone < last ∧ last ≤ gone + times ∧
      after sockets data rounds last = .ok final ∧ final.set.length = 0 ∧
      turns (loopTurn data rounds) times (gone, self) = .ok final) ∨
    (turns (loopTurn data rounds) times (gone, self) = .error .unfinished ∧
      ∀ last final, gone < last → last ≤ gone + times →
        after sockets data rounds last = .ok final → final.set.length ≠ 0) := by
  induction times generalizing gone self with
  | zero => exact .inr ⟨rfl, fun last _ later within => absurd later (Nat.not_lt_of_le within)⟩
  | succ times ih =>
      obtain ⟨next, next_reached, -⟩ := after_ok right data rounds (gone + 1)
      have turned : turn data (rounds gone) self = .ok next := by
        rw [after, reached] at next_reached
        exact next_reached
      by_cases empty : next.set.length = 0
      · have leaves : loopTurn data rounds (gone, self) = .ok (.leave next) := by
          simp only [loopTurn, turned, if_pos empty]
        exact .inl ⟨gone + 1, next, Nat.lt_succ_self gone, by omega, next_reached, empty,
          turns_leave leaves⟩
      · have goes_on : loopTurn data rounds (gone, self) = .ok (.again (gone + 1, next)) := by
          simp only [loopTurn, turned, if_neg empty]
        rw [turns_again goes_on]
        obtain ⟨last, final, later, within, facts⟩ | ⟨unfinished, never⟩ := ih next_reached
        · exact .inl ⟨last, final, by omega, by omega, facts⟩
        · refine .inr ⟨unfinished, fun last final later within at_last => ?_⟩
          obtain rfl | beyond := Nat.eq_or_lt_of_le (Nat.succ_le_of_lt later)
          · rw [next_reached] at at_last
            cases at_last
            exact empty
          · exact never last final beyond (by omega) at_last

/-- Data is sent to each socket of a list, whatever `Wait` and `Output_Space` report.  No error is
raised unless a descriptor is wrong, and then nothing is sent.  The arrays are aligned with the poll
set before every turn of every round.  When `Send` ends, each socket has got the data, and it ends once
each socket has been found with events as often as there are octets, or once if there are none. -/
theorem send_to_each (sockets : List Int) (nonempty : sockets ≠ []) (data : Octets)
    (rounds : Nat → Round) :
    ((∃ fd ∈ sockets, fd < 0) →
      ∀ times, send sockets data rounds times = .error (.raised .socketError)) ∧
    ((∀ fd ∈ sockets, 0 ≤ fd) →
      (∀ times, ∃ self, after sockets data rounds times = .ok self ∧
        ∀ count ≤ (self.set.wait (rounds times).polled).2, ∃ next,
          serveTimes data (rounds times).space count (self.wait (rounds times).polled) = .ok next ∧
            Aligned sockets data next) ∧
      (∀ times, Meets (· = .unfinished)
        (fun sent => ∀ sock, 0 < sock → sock ≤ sockets.length → received sent sock = data)
        (send sockets data rounds times)) ∧
      ∀ times, (∀ sock, 0 < sock → sock ≤ sockets.length →
          max 1 data.length ≤ timesFound sockets data rounds sock times) →
        send sockets data rounds times ≠ .error .unfinished) := by
  have some_sockets : ¬sockets.length = 0 := mt List.length_eq_zero_iff.1 nonempty
  constructor
  · intro wrong times
    rw [send, if_neg some_sockets, start_refused wrong]
  · intro right
    obtain ⟨first, started, -, -, -⟩ := start_ok right data
    have send_eq : ∀ times, send sockets data rounds times =
        Sending.sent <$> turns (loopTurn data rounds) times (0, first) := by
      intro times
      rw [send, if_neg some_sockets, started]
    refine ⟨?_, ?_, ?_⟩
    · intro times
      obtain ⟨self, reached, aligned, -⟩ := after_ok right data rounds times
      refine ⟨self, reached, fun count enough => ?_⟩
      obtain ⟨next, -, ran, next_aligned, -⟩ := serveTimes_ok (aligned.wait (rounds times).polled) rfl
        (enough.trans_eq (wait_turns (rounds times).polled self).symm)
      exact ⟨next, ran, next_aligned⟩
    · intro times
      rw [send_eq]
      obtain ⟨last, final, -, -, at_last, empty, left⟩ | ⟨unfinished, -⟩ :=
        @turns_loopTurn sockets data first right rounds times 0 started
      · rw [left]
        obtain ⟨final', at_last', aligned, -⟩ := after_ok right data rounds last
        cases at_last.symm.trans at_last'
        exact .ok fun sock positive below => aligned.received_eq empty positive below
      · rw [unfinished]
        exact .stop rfl
    · intro times often
      rw [send_eq]
      obtain ⟨last, final, -, -, -, -, left⟩ | ⟨-, never⟩ :=
        @turns_loopTurn sockets data first right rounds times 0 started
      · rw [left]
        exact nofun
      · obtain ⟨final, at_last, aligned, visits_eq⟩ := after_ok right data rounds times
        have empty : final.set.length = 0 :=
          aligned.empty fun sock positive below => (often sock positive below).trans_eq
            (visits_eq sock).symm
        have gone : 0 < times := by
          by_contra none_gone
          have found := often 1 Nat.one_pos (Nat.pos_of_ne_zero some_sockets)
          rw [Nat.eq_zero_of_not_pos none_gone, timesFound] at found
          omega
        exact absurd empty (never times final gone (Nat.zero_add times).ge at_last)

/-- Two sockets that are always found writable and have no space get one octet in each round. -/
theorem send_to_each_two :
    let rounds : Nat → Round := fun _ => ⟨fun _ => {.pollout}, fun _ => ⟨0, by decide⟩⟩
    ∃ sent, send [5, 6] [7, 8] rounds 2 = .ok sent ∧
      ∀ sock, 0 < sock → sock ≤ 2 → received sent sock = [7, 8] := by
  intro rounds
  have right : ∀ fd ∈ [(5 : Int), 6], 0 ≤ fd := by decide
  obtain ⟨-, ends, often⟩ := (send_to_each [5, 6] (by decide) [7, 8] rounds).2 right
  have ended : send [5, 6] [7, 8] rounds 2 ≠ .error .unfinished := by
    refine often 2 fun sock positive below => ?_
    have sock_eq : sock = 1 ∨ sock = 2 := by
      simp only [List.length_cons, List.length_nil] at below
      omega
    obtain rfl | rfl := sock_eq
    · decide
    · decide
  obtain ⟨stop, stopped, rfl⟩ | ⟨sent, sent_eq, all⟩ := ends 2
  · exact absurd stopped ended
  · exact ⟨sent, sent_eq, all⟩

end Sending
end Net
end AdaWebServer

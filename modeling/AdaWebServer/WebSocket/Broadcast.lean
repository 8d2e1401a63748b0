import AdaWebServer.Foundations.Protected
import AdaWebServer.WebSocket.Recipients

/-!
# The integrity of a broadcast

While the message is sent, what has been written to a recipient followed by what is in its memory
socket is what was written before followed by the frame.  The array of the recipients and the poll
set are compacted alike, so that a recipient stays at the position of its descriptor.
-/

namespace AdaWebServer
namespace WebSocket

open Execution (Run Guarded)
open Http2 (Octets Exn)
open Net (PollSet Pollfd EventsType)
open Slots

/-! ## What a recipient has received -/

/-- An object is registered, and has been written the frame but for the rest. -/
def Owed (before after : Database) (frame : Nat → Octets) (id : Nat) (rest : Octets) : Prop :=
  id ∈ after.registered ∧ ∃ part, part ++ rest = frame id ∧
    (after.member id).network = (before.member id).network ++ part

/-- An object is not registered, and has been written the start of the frame and what closing it
writes. -/
def Dropped (before after : Database) (frame : Nat → Octets) (id : Nat) : Prop :=
  id ∉ after.registered ∧ ∃ part rest closing, part ++ rest = frame id ∧
    (after.member id).network = (before.member id).network ++ part ++ closing

/-- Each recipient that has not failed is written its frame, in order and once, and has got all of
it in the end; those that have failed are unregistered, and nothing happens to other objects. -/
structure Delivered (before : Database) (recipients : List Nat) (frame : Nat → Octets)
    (state : Transmission) : Prop where
  kept : ∀ id ∈ recipients, id ∉ state.delivery.failed →
    ∃ rest, Owed before state.database frame id rest ∧ (state.delivery.finished = true → rest = [])
  failed : ∀ id ∈ state.delivery.failed, id ∈ recipients ∧ Dropped before state.database frame id
  others : ∀ id ∉ recipients,
    (state.database.member id).network = (before.member id).network ∧
      (id ∈ state.database.registered ↔ id ∈ before.registered)

/-- A database in which an object is as in another one. -/
def SameAt (id : Nat) (before after : Database) : Prop :=
  after.member id = before.member id ∧ (id ∈ after.registered ↔ id ∈ before.registered)

theorem Owed.of_same {before between after : Database} {frame : Nat → Octets} {id : Nat}
    {rest : Octets} (owed : Owed before between frame id rest) (same : SameAt id between after) :
    Owed before after frame id rest := by
  obtain ⟨registered, part, split, written⟩ := owed
  exact ⟨same.2.2 registered, part, split, by rw [same.1, written]⟩

theorem Dropped.of_same {before between after : Database} {frame : Nat → Octets} {id : Nat}
    (dropped : Dropped before between frame id) (same : SameAt id between after) :
    Dropped before after frame id := by
  obtain ⟨not_registered, part, rest, closing, split, written⟩ := dropped
  exact ⟨mt same.2.1 not_registered, part, rest, closing, split, by rw [same.1, written]⟩

/-- The first octets of the rest are written. -/
theorem Owed.write {before between after : Database} {frame : Nat → Octets} {id : Nat}
    {rest : Octets} (owed : Owed before between frame id rest) (count : Nat)
    (registered : id ∈ after.registered ↔ id ∈ between.registered)
    (network : (after.member id).network = (between.member id).network ++ rest.take count) :
    Owed before after frame id (rest.drop count) := by
  obtain ⟨was_registered, part, split, written⟩ := owed
  refine ⟨registered.2 was_registered, part ++ rest.take count, ?_, ?_⟩
  · rw [List.append_assoc, List.take_append_drop, split]
  · rw [network, written, List.append_assoc]

/-- What is unregistered has been written the start of its frame. -/
theorem Owed.dropped {before between after : Database} {frame : Nat → Octets} {id : Nat}
    {rest : Octets} (owed : Owed before between frame id rest) (closing : Octets)
    (not_registered : id ∉ after.registered)
    (network : (after.member id).network = (between.member id).network ++ closing) :
    Dropped before after frame id := by
  obtain ⟨_, part, split, written⟩ := owed
  exact ⟨not_registered, part, rest, closing, split, by rw [network, written]⟩

/-! ## The invariant -/

/-- The recipients that are left are at the positions of the poll set, and the rest of the message to
each of them is in its memory socket. -/
structure InProgress (before : Database) (recipients : List Nat) (frame : Nat → Octets)
    (state : Transmission) : Prop where
  waiting : ∀ position, 0 < position → position ≤ state.delivery.set.length →
    ∃ id memory, state.delivery.socks position = some id ∧ id ∈ recipients ∧
      id ∉ state.delivery.failed ∧ (state.database.member id).memSock = some memory ∧
      (state.database.member id).inMem = false ∧ Owed before state.database frame id memory
  distinct : (held state.delivery.socks state.delivery.set.length).Nodup
  complete : ∀ id ∈ recipients, id ∉ state.delivery.failed →
    some id ∉ held state.delivery.socks state.delivery.set.length →
      Owed before state.database frame id []
  failed : ∀ id ∈ state.delivery.failed, id ∈ recipients ∧ Dropped before state.database frame id
  others : ∀ id ∉ recipients,
    (state.database.member id).network = (before.member id).network ∧
      (id ∈ state.database.registered ↔ id ∈ before.registered)
  ready : state.delivery.turns = 0 ∨ ∃ passed, state.delivery.sockIndex = passed + 1 ∧
    state.delivery.turns ≤ state.delivery.set.readyAfter passed

variable {before : Database} {recipients : List Nat} {frame : Nat → Octets}
  {self next : Transmission}

/-- A message that is being sent is delivered as far as it has been written. -/
theorem InProgress.delivered (progress : InProgress before recipients frame self)
    (ends : self.delivery.finished = true → self.delivery.set.length = 0) :
    Delivered before recipients frame self := by
  refine ⟨?_, progress.failed, progress.others⟩
  intro id among not_failed
  by_cases left : some id ∈ held self.delivery.socks self.delivery.set.length
  · obtain ⟨position, positive, within, at_position⟩ := mem_held.1 left
    obtain ⟨other, memory, at_other, _, _, _, _, owed⟩ :=
      progress.waiting position positive within
    obtain rfl : id = other := Option.some.inj (at_position.symm.trans at_other)
    refine ⟨memory, owed, fun finished => ?_⟩
    have empty := ends finished
    omega
  · exact ⟨[], progress.complete id among not_failed left, fun _ => rfl⟩

/-- The next socket that is ready. -/
theorem InProgress.next_socket (progress : InProgress before recipients frame self)
    (turn : 0 < self.delivery.turns) :
    ∃ passed id memory, self.delivery.set.next self.delivery.sockIndex = passed + 1 ∧
      passed < self.delivery.set.length ∧
      self.delivery.turns ≤ self.delivery.set.readyAfter passed ∧
      (self.delivery.set.fds (passed + 1)).HasEvents ∧
      self.delivery.socks (passed + 1) = some id ∧ id ∈ recipients ∧
      id ∉ self.delivery.failed ∧ (self.database.member id).memSock = some memory ∧
      (self.database.member id).inMem = false ∧ Owed before self.database frame id memory := by
  obtain none_left | ⟨skipped, index_eq, enough⟩ := progress.ready
  · omega
  · obtain ⟨passed, next_eq, within, events, same⟩ :=
      PollSet.next_ready (Nat.lt_of_lt_of_le turn enough)
    obtain ⟨id, memory, facts⟩ :=
      progress.waiting (passed + 1) (Nat.succ_pos passed) (Nat.succ_le_of_lt within)
    exact ⟨passed, id, memory, by rw [index_eq, next_eq], within, by rwa [same], events, facts⟩

/-! ## One turn -/

/-- A recipient has been written a part of its rest, and its turn is over. -/
theorem InProgress.advance (progress : InProgress before recipients frame self) {passed id : Nat}
    (rest : Octets) (at_position : self.delivery.socks (passed + 1) = some id)
    (within : passed < self.delivery.set.length)
    (enough : self.delivery.turns ≤ self.delivery.set.readyAfter passed)
    (events : (self.delivery.set.fds (passed + 1)).HasEvents)
    (delivery_eq : next.delivery = { self.delivery with sockIndex := passed + 1 + 1 }.endTurn)
    (same : ∀ other, other ≠ id → SameAt other self.database next.database)
    (memory : (next.database.member id).memSock = some rest)
    (to_network : (next.database.member id).inMem = false)
    (owed : Owed before next.database frame id rest) (among : id ∈ recipients)
    (not_failed : id ∉ self.delivery.failed) :
    InProgress before recipients frame next := by
  have set_eq : next.delivery.set = self.delivery.set := by rw [delivery_eq]; rfl
  have socks_eq : next.delivery.socks = self.delivery.socks := by rw [delivery_eq]; rfl
  have failed_eq : next.delivery.failed = self.delivery.failed := by rw [delivery_eq]; rfl
  have is_held : some id ∈ held self.delivery.socks self.delivery.set.length :=
    mem_held.2 ⟨passed + 1, Nat.succ_pos passed, within, at_position⟩
  constructor
  case waiting =>
    intro position positive below
    rw [set_eq] at below
    rw [socks_eq, failed_eq]
    obtain ⟨other, left, at_other, other_among, other_not, other_memory, other_network, other_owed⟩ :=
      progress.waiting position positive below
    by_cases this : other = id
    · subst this
      exact ⟨other, rest, at_other, among, not_failed, memory, to_network, owed⟩
    · have kept := same other this
      exact ⟨other, left, at_other, other_among, other_not, by rw [kept.1, other_memory],
        by rw [kept.1, other_network], other_owed.of_same kept⟩
  case distinct =>
    rw [socks_eq, set_eq]
    exact progress.distinct
  case complete =>
    intro other other_among other_not not_held
    rw [socks_eq, set_eq] at not_held
    rw [failed_eq] at other_not
    have different : other ≠ id := by
      rintro rfl
      exact not_held is_held
    exact (progress.complete other other_among other_not not_held).of_same (same other different)
  case failed =>
    intro other other_failed
    rw [failed_eq] at other_failed
    have different : other ≠ id := by
      rintro rfl
      exact not_failed other_failed
    have ⟨other_among, dropped⟩ := progress.failed other other_failed
    exact ⟨other_among, dropped.of_same (same other different)⟩
  case others =>
    intro other not_among
    have different : other ≠ id := by
      rintro rfl
      exact not_among among
    have kept := same other different
    have unchanged := progress.others other not_among
    rw [kept.1, kept.2]
    exact unchanged
  case ready =>
    refine .inr ⟨passed + 1, by rw [delivery_eq]; rfl, ?_⟩
    have split : self.delivery.set.readyAfter passed =
        self.delivery.set.readyAfter (passed + 1) + 1 := by
      rw [PollSet.readyAfter, heldAfter_skip _ within, Multiset.countP_cons_of_pos _ events]
      rfl
    rw [set_eq, show next.delivery.turns = self.delivery.turns - 1 by rw [delivery_eq]; rfl]
    omega

theorem Delivery.endTurn_ends {delivery : Delivery} (going_on : delivery.finished = false)
    (finished : delivery.endTurn.finished = true) : delivery.endTurn.set.length = 0 := by
  have last : (delivery.finished ||
      (decide (delivery.turns - 1 = 0) && decide (delivery.set.length = 0))) = true := finished
  rw [going_on, Bool.false_or, Bool.and_eq_true] at last
  exact of_decide_eq_true last.2

/-- One turn removes the socket after some positions. -/
structure Removed (passed : Nat) (before after : Delivery) : Prop where
  length_eq : after.set.length = before.set.length - 1
  fds_eq : ∀ position ≤ before.set.length - 1,
    after.set.fds position = moveTo before.set.fds (passed + 1) before.set.length position
  socks_eq : ∀ position ≤ before.set.length - 1,
    after.socks position = moveTo before.socks (passed + 1) before.set.length position
  index_eq : after.sockIndex = passed + 1
  turns_eq : after.turns = before.turns - 1
  ends : before.finished = false → after.finished = true → after.set.length = 0

/-- `Remove` and what goes with it, also if the socket has been taken out of the array before. -/
theorem Delivery.removed_compact {delivery stopped : Delivery} {passed : Nat}
    (within : passed < delivery.set.length) (set_eq : stopped.set = delivery.set)
    (turns_eq : stopped.turns = delivery.turns) (finished_eq : stopped.finished = delivery.finished)
    (socks_eq : ∀ position, position ≠ passed + 1 → stopped.socks position = delivery.socks position)
    (failed : List Nat) :
    Removed passed delivery ({ stopped.compact (passed + 1) with failed }.endTurn) := by
  have in_range : stopped.set.InRange (passed + 1) := by
    rw [set_eq]
    exact ⟨Nat.succ_pos passed, within⟩
  obtain ⟨set, removed⟩ := PollSet.remove_of_inRange in_range
  have length_eq := (PollSet.remove_ok removed).2.1
  have compact_eq : stopped.compact (passed + 1) =
      { stopped with
        set
        socks :=
          if passed + 1 ≠ stopped.set.length then
            Function.update stopped.socks (passed + 1) (stopped.socks stopped.set.length)
          else stopped.socks
        sockIndex := passed + 1 } := by
    rw [Delivery.compact, removed]
  rw [compact_eq]
  rw [set_eq] at length_eq
  constructor
  case length_eq => exact length_eq
  case fds_eq =>
    intro position below
    rw [← set_eq]
    exact PollSet.remove_fds removed (below.trans_eq length_eq.symm)
  case socks_eq =>
    intro position below
    show (ite _ _ _ : Nat → Option Nat) position = _
    rw [set_eq, moveTo]
    by_cases last : passed + 1 = delivery.set.length
    · have other : position ≠ passed + 1 := by omega
      rw [if_neg (not_not_intro last), Function.update_of_ne other, socks_eq position other]
    · rw [if_pos last, Function.update_apply, Function.update_apply,
        socks_eq _ (Ne.symm last)]
      by_cases this : position = passed + 1
      · rw [if_pos this, if_pos this]
      · rw [if_neg this, if_neg this, socks_eq position this]
  case index_eq => rfl
  case turns_eq => exact congrArg (· - 1) turns_eq
  case ends => exact fun going_on => Delivery.endTurn_ends (finished_eq.trans going_on)

/-- A recipient that has got all of its frame, or has failed, is removed. -/
theorem InProgress.removed (progress : InProgress before recipients frame self) {passed id : Nat}
    (at_position : self.delivery.socks (passed + 1) = some id)
    (within : passed < self.delivery.set.length)
    (enough : self.delivery.turns ≤ self.delivery.set.readyAfter passed)
    (events : (self.delivery.set.fds (passed + 1)).HasEvents)
    (removed : Removed passed self.delivery next.delivery)
    (same : ∀ other, other ≠ id → SameAt other self.database next.database)
    (outcome : next.delivery.failed = self.delivery.failed ∧ Owed before next.database frame id [] ∨
      next.delivery.failed = self.delivery.failed ++ [id] ∧ Dropped before next.database frame id)
    (among : id ∈ recipients) (not_failed : id ∉ self.delivery.failed) :
    InProgress before recipients frame next := by
  have held_eq : some id ::ₘ held next.delivery.socks next.delivery.set.length =
      held self.delivery.socks self.delivery.set.length := by
    rw [← held_moveTo (Nat.succ_pos passed) (Nat.succ_le_of_lt within), at_position,
      removed.length_eq, held_congr fun position _ below => removed.socks_eq position below]
  have distinct := progress.distinct
  rw [← held_eq, Multiset.nodup_cons] at distinct
  have failed_other : ∀ other, other ≠ id →
      (other ∈ next.delivery.failed ↔ other ∈ self.delivery.failed) := by
    intro other different
    obtain ⟨failed_eq, _⟩ | ⟨failed_eq, _⟩ := outcome
    · rw [failed_eq]
    · rw [failed_eq, List.mem_append, List.mem_singleton, or_iff_left different]
  constructor
  case waiting =>
    intro position positive below
    have is_held : next.delivery.socks position ∈
        held next.delivery.socks next.delivery.set.length :=
      mem_held.2 ⟨position, positive, below, rfl⟩
    have was_held := Multiset.mem_cons_of_mem (b := some id) is_held
    rw [held_eq] at was_held
    obtain ⟨earlier, earlier_pos, earlier_within, earlier_eq⟩ := mem_held.1 was_held
    obtain ⟨other, left, at_other, other_among, other_not, other_memory, other_network, other_owed⟩ :=
      progress.waiting earlier earlier_pos earlier_within
    have at_next : next.delivery.socks position = some other := earlier_eq.symm.trans at_other
    have different : other ≠ id := by
      rintro rfl
      exact distinct.1 (at_next ▸ is_held)
    have kept := same other different
    exact ⟨other, left, at_next, other_among, mt (failed_other other different).1 other_not,
      by rw [kept.1, other_memory], by rw [kept.1, other_network], other_owed.of_same kept⟩
  case distinct => exact distinct.2
  case complete =>
    intro other other_among other_not not_held
    by_cases this : other = id
    · subst this
      obtain ⟨_, owed⟩ | ⟨failed_eq, _⟩ := outcome
      · exact owed
      · rw [failed_eq] at other_not
        exact absurd (List.mem_append_right _ List.mem_cons_self) other_not
    · have not_before : some other ∉ held self.delivery.socks self.delivery.set.length := by
        rw [← held_eq, Multiset.mem_cons, not_or]
        exact ⟨fun equal => this (Option.some.inj equal), not_held⟩
      exact (progress.complete other other_among (mt (failed_other other this).2 other_not)
        not_before).of_same (same other this)
  case failed =>
    intro other other_failed
    by_cases this : other = id
    · subst this
      obtain ⟨failed_eq, _⟩ | ⟨_, dropped⟩ := outcome
      · rw [failed_eq] at other_failed
        exact absurd other_failed not_failed
      · exact ⟨among, dropped⟩
    · have ⟨other_among, dropped⟩ := progress.failed other ((failed_other other this).1 other_failed)
      exact ⟨other_among, dropped.of_same (same other this)⟩
  case others =>
    intro other not_among
    have different : other ≠ id := by
      rintro rfl
      exact not_among among
    have kept := same other different
    have unchanged := progress.others other not_among
    rw [kept.1, kept.2]
    exact unchanged
  case ready =>
    refine .inr ⟨passed, removed.index_eq, ?_⟩
    have split : self.delivery.set.readyAfter passed = next.delivery.set.readyAfter passed + 1 := by
      have agree : heldAfter next.delivery.set.fds passed (self.delivery.set.length - 1) =
          heldAfter (moveTo self.delivery.set.fds (passed + 1) self.delivery.set.length) passed
            (self.delivery.set.length - 1) :=
        held_congr fun position _ below => removed.fds_eq (passed + position) (by omega)
      rw [PollSet.readyAfter, PollSet.readyAfter, removed.length_eq, agree,
        ← heldAfter_moveTo _ within, Multiset.countP_cons_of_pos _ events]
    rw [removed.turns_eq]
    omega

/-! ## The steps -/

/-- What is excluded: a socket that takes only a part of what is written to it, and a recipient that
stays registered although its time is over. -/
def Transmission.Whole (self : Transmission) : Progress → Prop
  | .poll _ => True
  | .timeout kept => ∀ id ∈ self.delivery.remaining, kept id = false
  | .turn outputSpace (.accepted last) _ => last = self.chunk outputSpace
  | .turn _ .raised _ => True

instance (self : Transmission) (progress : Progress) : Decidable (self.Whole progress) := by
  unfold Transmission.Whole
  match progress with
  | .poll _ | .timeout _ | .turn _ (.accepted _) _ | .turn _ .raised _ => infer_instance

/-- What a turn does that writes the next part of the rest as a whole. -/
theorem Delivery.turn_whole {database : Database} {delivery : Delivery} {index id : Nat}
    {memory : Octets} (next_eq : delivery.set.next delivery.sockIndex = index)
    (at_index : delivery.socks index = some id)
    (memory_eq : (database.member id).memSock = some memory)
    (to_network : (database.member id).inMem = false) {outputSpace : Option Nat}
    {written : Written} (closing : Octets) {chunk : Nat}
    (chunk_eq : chunk = Member.chunkSize outputSpace memory.length)
    (whole : written = .accepted chunk ∨ written = .raised ∧ chunk = 0) :
    let sent := database.onMember id fun member =>
      { member with
        memSock := some (memory.drop chunk)
        network := member.network ++ memory.take chunk }
    delivery.turn database outputSpace written closing =
      if memory.length ≤ chunk then
        (sent.onMember id ({ · with memSock := none }), (delivery.compact index).endTurn)
      else (sent, { delivery with sockIndex := index + 1 }.endTurn) := by
  have last_eq : (if chunk = 0 then some 0 else some chunk) = some chunk := by
    split_ifs with nothing
    · rw [nothing]
    · rfl
  have sent_eq : (database.onMember id ({ · with memSock := some (memory.drop chunk) })).onMember id
      (·.sendPart (memory.take chunk) chunk) = database.onMember id fun member =>
        { member with
          memSock := some (memory.drop chunk)
          network := member.network ++ memory.take chunk } := by
    simp only [Database.onMember, Function.update_self, Function.update_idem, Member.sendPart,
      to_network, List.take_take, min_self, Bool.false_eq_true, if_false]
  intro sent
  obtain rfl | ⟨rfl, rfl⟩ := whole
  · simp only [Delivery.turn, next_eq, at_index, memory_eq, ← chunk_eq, last_eq, sent_eq,
      Nat.sub_eq_zero_iff_le]
    rfl
  · simp only [Delivery.turn, next_eq, at_index, memory_eq, ← chunk_eq, if_true, sent_eq,
      Nat.sub_eq_zero_iff_le]
    rfl

/-- What a turn does in which the socket raises an exception. -/
theorem Delivery.turn_raised {database : Database} {delivery : Delivery} {index id : Nat}
    {memory : Octets} (next_eq : delivery.set.next delivery.sockIndex = index)
    (at_index : delivery.socks index = some id)
    (memory_eq : (database.member id).memSock = some memory) {outputSpace : Option Nat}
    (closing : Octets) (something : Member.chunkSize outputSpace memory.length ≠ 0) :
    delivery.turn database outputSpace .raised closing =
      ((database.onMember id ({ · with
          memSock := some (memory.drop (Member.chunkSize outputSpace memory.length)) })).abandon id
        closing,
        { { delivery with socks := Function.update delivery.socks index none }.compact index with
          failed := delivery.failed ++ [id] }.endTurn) := by
  simp only [Delivery.turn, next_eq, at_index, memory_eq, if_neg something]

/-- One turn keeps the invariant. -/
theorem InProgress.turn (progress : InProgress before recipients frame self)
    (going_on : self.delivery.finished = false) (turns : 0 < self.delivery.turns)
    {outputSpace : Option Nat} {written : Written} (closing : Octets)
    (whole : written = .accepted (self.chunk outputSpace) ∨ written = .raised) :
    InProgress before recipients frame (self.step (.turn outputSpace written closing)) ∧
      ((self.step (.turn outputSpace written closing)).delivery.finished = true →
        (self.step (.turn outputSpace written closing)).delivery.set.length = 0) := by
  obtain ⟨passed, id, memory, next_eq, within, enough, events, at_position, among, not_failed,
    memory_eq, to_network, owed⟩ := progress.next_socket turns
  have chunk_eq : self.chunk outputSpace = Member.chunkSize outputSpace memory.length := by
    simp only [Transmission.chunk, next_eq, at_position, memory_eq, Option.elim]
  have step_eq : self.step (.turn outputSpace written closing) =
      { database := (self.delivery.turn self.database outputSpace written closing).1
        delivery := (self.delivery.turn self.database outputSpace written closing).2 } := rfl
  rw [chunk_eq] at whole
  by_cases raised : written = .raised ∧ Member.chunkSize outputSpace memory.length ≠ 0
  · obtain ⟨rfl, something⟩ := raised
    have removed := @Delivery.removed_compact self.delivery
      { self.delivery with socks := Function.update self.delivery.socks (passed + 1) none } passed
      within rfl rfl rfl (fun _ other => Function.update_of_ne other _ _)
      (self.delivery.failed ++ [id])
    rw [step_eq, Delivery.turn_raised next_eq at_position memory_eq closing something]
    refine ⟨progress.removed at_position within enough events removed ?_ (.inr ⟨rfl, ?_⟩) among
      not_failed, removed.ends going_on⟩
    · intro other different
      refine ⟨?_, ?_⟩
      · rw [Database.abandon_ne _ _ _ different, Database.onMember_ne _ _ _ different]
      · rw [Database.abandon_registered, Finset.mem_erase, and_iff_right different,
          Database.onMember_registered]
    · refine owed.dropped closing ?_ ?_
      · rw [Database.abandon_registered]
        exact Finset.notMem_erase _ _
      · rw [Database.abandon_network, Database.onMember_self]
  · have written_whole : written = .accepted (Member.chunkSize outputSpace memory.length) ∨
        written = .raised ∧ Member.chunkSize outputSpace memory.length = 0 := by
      obtain accepted | is_raised := whole
      · exact .inl accepted
      · exact .inr ⟨is_raised, not_not.1 fun something => raised ⟨is_raised, something⟩⟩
    rw [step_eq,
      Delivery.turn_whole next_eq at_position memory_eq to_network closing rfl written_whole]
    generalize Member.chunkSize outputSpace memory.length = chunk
    by_cases all : memory.length ≤ chunk
    · rw [if_pos all]
      have removed := @Delivery.removed_compact self.delivery self.delivery passed within rfl rfl rfl
        (fun _ _ => rfl) (self.delivery.compact (passed + 1)).failed
      refine ⟨progress.removed at_position within enough events removed ?_ (.inl ⟨?_, ?_⟩) among
        not_failed, removed.ends going_on⟩
      · intro other different
        refine ⟨?_, Iff.rfl⟩
        rw [Database.onMember_ne _ _ _ different, Database.onMember_ne _ _ _ different]
      · show (self.delivery.compact (passed + 1)).failed = self.delivery.failed
        rw [Delivery.compact]
        split <;> rfl
      · rw [← List.drop_eq_nil_of_le all]
        refine owed.write chunk Iff.rfl ?_
        rw [Database.onMember_self, Database.onMember_self]
    · rw [if_neg all]
      refine ⟨progress.advance (memory.drop chunk) at_position within enough events rfl ?_ ?_ ?_ ?_
        among not_failed, Delivery.endTurn_ends going_on⟩
      · intro other different
        refine ⟨?_, Iff.rfl⟩
        rw [Database.onMember_ne _ _ _ different]
      · rw [Database.onMember_self]
      · rw [Database.onMember_self]
        exact to_network
      · refine owed.write chunk Iff.rfl ?_
        rw [Database.onMember_self]

theorem InProgress.poll (progress : InProgress before recipients frame self)
    (polled : Nat → EventsType) : InProgress before recipients frame (self.step (.poll polled)) where
  waiting := progress.waiting
  distinct := progress.distinct
  complete := progress.complete
  failed := progress.failed
  others := progress.others
  ready := .inr ⟨0, rfl, (PollSet.wait_count self.delivery.set polled).le⟩

theorem Delivery.mem_remaining {delivery : Delivery} {id : Nat} :
    id ∈ delivery.remaining ↔ some id ∈ held delivery.socks delivery.set.length := by
  rw [Delivery.remaining, List.mem_filterMap, mem_held]
  constructor
  · rintro ⟨position, among, at_position⟩
    exact ⟨position + 1, Nat.succ_pos position, List.mem_range.1 among, at_position⟩
  · rintro ⟨position, positive, within, at_position⟩
    refine ⟨position - 1, List.mem_range.2 (by omega), ?_⟩
    rw [Nat.sub_add_cancel positive, at_position]

/-- Objects are unregistered one after the other. -/
theorem unregister_all (kept : Nat → Bool) (ids : List Nat) (database : Database)
    (none_kept : ∀ id ∈ ids, kept id = false) :
    (ids.foldl (fun database id => if kept id then database else database.unregister id)
        database).member = database.member ∧
      ∀ id, id ∈ (ids.foldl (fun database id => if kept id then database else database.unregister id)
        database).registered ↔ id ∈ database.registered ∧ id ∉ ids := by
  induction ids generalizing database with
  | nil => exact ⟨rfl, fun id => (and_iff_left List.not_mem_nil).symm⟩
  | cons first ids ih =>
      have ⟨member_eq, registered_iff⟩ := ih (database.unregister first) fun id among =>
        none_kept id (List.mem_cons_of_mem first among)
      have not_kept : ¬kept first = true := by
        rw [none_kept first List.mem_cons_self]
        exact Bool.false_ne_true
      rw [List.foldl_cons, if_neg not_kept]
      refine ⟨member_eq.trans (Database.unregister_member _ _), fun id => ?_⟩
      rw [registered_iff, Database.unregister_registered, Finset.mem_erase, List.mem_cons, not_or]
      tauto

/-- Recipients whose time is over are unregistered. -/
theorem InProgress.timeout (progress : InProgress before recipients frame self)
    {kept : Nat → Bool} (none_kept : ∀ id ∈ self.delivery.remaining, kept id = false) :
    Delivered before recipients frame (self.step (.timeout kept)) := by
  have ⟨member_eq, registered_iff⟩ := unregister_all kept self.delivery.remaining self.database
    none_kept
  have same : ∀ id ∉ self.delivery.remaining,
      SameAt id self.database (self.step (.timeout kept)).database := fun id not_left =>
    ⟨congrFun member_eq id, (registered_iff id).trans (and_iff_left not_left)⟩
  have waits : ∀ id ∈ self.delivery.remaining, ∃ memory, id ∈ recipients ∧
      id ∉ self.delivery.failed ∧ Owed before self.database frame id memory := by
    intro id left
    obtain ⟨position, positive, within, at_position⟩ := mem_held.1 (Delivery.mem_remaining.1 left)
    obtain ⟨other, memory, at_other, among, not_failed, _, _, owed⟩ :=
      progress.waiting position positive within
    obtain rfl : id = other := Option.some.inj (at_position.symm.trans at_other)
    exact ⟨memory, among, not_failed, owed⟩
  constructor
  case kept =>
    intro id among not_failed
    rw [show (self.step (.timeout kept)).delivery.failed =
      self.delivery.failed ++ self.delivery.remaining from rfl, List.mem_append, not_or] at not_failed
    have not_held := mt Delivery.mem_remaining.2 not_failed.2
    exact ⟨[], (progress.complete id among not_failed.1 not_held).of_same (same id not_failed.2),
      fun _ => rfl⟩
  case failed =>
    intro id failed
    obtain earlier | left := List.mem_append.1 failed
    · have ⟨among, dropped⟩ := progress.failed id earlier
      refine ⟨among, dropped.of_same (same id fun left => ?_)⟩
      obtain ⟨_, _, not_failed, _⟩ := waits id left
      exact not_failed earlier
    · obtain ⟨memory, among, _, owed⟩ := waits id left
      refine ⟨among, owed.dropped [] (fun registered => ((registered_iff id).1 registered).2 left) ?_⟩
      rw [List.append_nil]
      exact congrArg Member.network (congrFun member_eq id)
  case others =>
    intro id not_among
    have kept_same := same id fun left => by
      obtain ⟨_, among, _⟩ := waits id left
      exact not_among among
    have unchanged := progress.others id not_among
    rw [kept_same.1, kept_same.2]
    exact unchanged

/-! ## The start -/

/-- Sending to an empty memory socket fills it with the frame. -/
theorem Database.sendOn_memory {database : Database} {id : Nat} (octets : Octets)
    (in_memory : (database.member id).inMem = true)
    (empty : (database.member id).memSock = some []) :
    Database.sendOn id octets none database =
      .ok () (database.onMember id ({ · with memSock := some octets })) := by
  rw [sendOn, Member.send, if_pos in_memory, empty]
  rfl

/-- `Initialize_Recipients` at one object, without an exception. -/
theorem Database.initializeRecipient_eq {frame : Nat → Octets} {interrupted : Nat → Option Nat}
    {id : Nat} (uninterrupted : interrupted id = none) (asynchronous : Bool) (database : Database) :
    Database.initializeRecipient frame interrupted asynchronous id database =
      let filled := database.onMember id ({ · with memSock := some (frame id), inMem := false })
      if asynchronous = true ∨ id ∈ database.sending then .ok false (filled.enqueue id)
      else .ok true filled := by
  simp only [initializeRecipient, setInMem, bind, EStateM.bind, modify, modifyGet,
    MonadStateOf.modifyGet, AdaWebServer.Protected.modifyGet_returned, onMember_onMember,
    uninterrupted]
  rw [sendOn_memory _ (by rw [onMember_self]) (by rw [onMember_self])]
  simp only [onMember_onMember]
  show (ite (asynchronous = true ∨ id ∈ database.sending) _ _ : Protected Bool) _ = _
  split_ifs <;> rfl

/-- What the memory sends leave of a list of objects: those that nothing else is sent to now hold
their frame, the frames of the others are at the end of their queues. -/
structure Prepared (before : Database) (queues : Nat → Prop) (ids : List Nat)
    (frame : Nat → Octets) (after : Database) : Prop where
  registered_eq : after.registered = before.registered
  sending_eq : after.sending = before.sending
  others : ∀ id ∉ ids, after.member id = before.member id
  chosen : ∀ id ∈ ids, ¬queues id →
    after.member id = { before.member id with memSock := some (frame id), inMem := false }
  queued : ∀ id ∈ ids, queues id → after.member id =
    { before.member id with
      messages := (before.member id).messages ++ [frame id]
      memSock := none
      inMem := false }

/-- Memory sends to one list of objects after another. -/
theorem Prepared.append {before between after : Database} {queues : Nat → Prop}
    {first second : List Nat} {frame : Nat → Octets}
    (left : Prepared before queues first frame between)
    (right : Prepared between queues second frame after) (disjoint : ∀ id ∈ first, id ∉ second) :
    Prepared before queues (first ++ second) frame after := by
  have member_left : ∀ id ∈ first, after.member id = between.member id := fun id among =>
    right.others id (disjoint id among)
  have member_right : ∀ id ∈ second, between.member id = before.member id := fun id among =>
    left.others id fun among_first => disjoint id among_first among
  constructor
  case registered_eq => exact right.registered_eq.trans left.registered_eq
  case sending_eq => exact right.sending_eq.trans left.sending_eq
  case others =>
    intro id not_among
    rw [List.mem_append, not_or] at not_among
    rw [right.others id not_among.2, left.others id not_among.1]
  case chosen =>
    intro id among not_queued
    obtain among | among := List.mem_append.1 among
    · rw [member_left id among, left.chosen id among not_queued]
    · rw [right.chosen id among not_queued, member_right id among]
  case queued =>
    intro id among is_queued
    obtain among | among := List.mem_append.1 among
    · rw [member_left id among, left.queued id among is_queued]
    · rw [right.queued id among is_queued, member_right id among]

/-- The memory send to one object, without an exception. -/
theorem Database.initializeRecipient_prepares {interrupted : Nat → Option Nat} {id : Nat}
    (uninterrupted : interrupted id = none) (frame : Nat → Octets) (asynchronous : Bool)
    (before : Database) :
    ∃ after,
      Database.initializeRecipient frame interrupted asynchronous id before =
        .ok (decide ¬(asynchronous = true ∨ id ∈ before.sending)) after ∧
      Prepared before (fun id => asynchronous = true ∨ id ∈ before.sending) [id] frame after := by
  have others : ∀ change : Member → Member, ∀ other ∉ [id],
      (before.onMember id change).member other = before.member other := fun change other not_among =>
    onMember_ne _ _ _ fun same => not_among (List.mem_singleton.2 same)
  rw [Database.initializeRecipient_eq uninterrupted]
  by_cases queues : asynchronous = true ∨ id ∈ before.sending
  · refine ⟨(before.onMember id ({ · with memSock := some (frame id), inMem := false })).enqueue id,
      ?_, rfl, rfl, ?_, ?_, ?_⟩
    · rw [decide_eq_false (not_not_intro queues)]
      exact if_pos queues
    · intro other not_among
      rw [enqueue_member, onMember_onMember]
      exact others _ other not_among
    · intro other among not_queued
      obtain rfl := List.mem_singleton.1 among
      exact absurd queues not_queued
    · intro other among _
      obtain rfl := List.mem_singleton.1 among
      rw [enqueue_member, onMember_onMember, onMember_self]
      rfl
  · refine ⟨before.onMember id ({ · with memSock := some (frame id), inMem := false }),
      ?_, rfl, rfl, others _, ?_, ?_⟩
    · rw [decide_eq_true queues]
      exact if_neg queues
    · intro other among _
      obtain rfl := List.mem_singleton.1 among
      exact onMember_self _ _ _
    · intro other among is_queued
      obtain rfl := List.mem_singleton.1 among
      exact absurd is_queued queues

/-- `Initialize_Recipients` at a list of objects, without an exception. -/
theorem Database.initializeRecipients_ok {frame : Nat → Octets} {interrupted : Nat → Option Nat}
    {ids : List Nat} (uninterrupted : ∀ id ∈ ids, interrupted id = none) (distinct : ids.Nodup)
    (asynchronous : Bool) (before : Database) :
    ∃ after,
      Database.initializeRecipients frame interrupted asynchronous ids before =
        .ok (ids.filter fun id => ¬(asynchronous = true ∨ id ∈ before.sending)) after ∧
      Prepared before (fun id => asynchronous = true ∨ id ∈ before.sending) ids frame after := by
  induction ids generalizing before with
  | nil => exact ⟨before, rfl, rfl, rfl, fun _ _ => rfl, nofun, nofun⟩
  | cons first ids ih =>
      obtain ⟨first_new, distinct⟩ := List.nodup_cons.1 distinct
      obtain ⟨between, first_eq, prepared⟩ := Database.initializeRecipient_prepares
        (uninterrupted first List.mem_cons_self) frame asynchronous before
      obtain ⟨after, rest_eq, rest_prepared⟩ :=
        ih (fun id among => uninterrupted id (List.mem_cons_of_mem first among)) distinct between
      rw [prepared.sending_eq] at rest_eq rest_prepared
      refine ⟨after, ?_, prepared.append rest_prepared fun id among =>
        List.mem_singleton.1 among ▸ first_new⟩
      simp only [initializeRecipients, bind, EStateM.bind, first_eq, rest_eq, List.filter_cons]
      rfl

/-- Sockets that are open are added to a set that has room for them. -/
theorem Delivery.addAll_ok {database : Database} {ids : List Nat} {set : PollSet}
    (are_open : ∀ id ∈ ids, 0 ≤ (database.member id).fd)
    (room : set.length + ids.length ≤ set.size) :
    ∃ filled, Delivery.addAll database ids set = .ok filled ∧
      filled.length = set.length + ids.length := by
  induction ids generalizing set with
  | nil => exact ⟨set, rfl, rfl⟩
  | cons first ids ih =>
      rw [List.length_cons] at room
      have not_full : ¬set.size ≤ set.length := by omega
      have not_closed : ¬(database.member first).fd < 0 :=
        Int.not_lt.2 (are_open first List.mem_cons_self)
      obtain ⟨added, added_eq⟩ : ∃ added, set.add (database.member first).fd outputMode = .ok added :=
        ⟨_, by rw [PollSet.add, dif_neg not_full, if_neg not_closed]⟩
      have size_eq : added.size = set.size := by
        rw [PollSet.add, dif_neg not_full, if_neg not_closed] at added_eq
        cases added_eq
        rfl
      have length_eq := (PollSet.add_ok added_eq).1
      obtain ⟨filled, filled_eq, filled_length⟩ := @ih added
        (fun id among => are_open id (List.mem_cons_of_mem first among)) (by omega)
      refine ⟨filled, ?_, by rw [filled_length, length_eq, List.length_cons]; omega⟩
      rw [Delivery.addAll, added_eq]
      exact filled_eq

/-- The invariant holds when the recipients have been initialized. -/
theorem InProgress.start {before started : Database} {queues : Nat → Prop} {matched : List Nat}
    {frame : Nat → Octets} (prepared : Prepared before queues matched frame started)
    {recipients : List Nat} (distinct : recipients.Nodup)
    (chosen : ∀ id ∈ recipients, id ∈ matched ∧ ¬queues id ∧ id ∈ before.registered)
    (others : ∀ id ∈ matched, id ∉ recipients → queues id)
    (are_open : ∀ id ∈ recipients, 0 ≤ (before.member id).fd) :
    ∃ delivery, Delivery.start started recipients = .ok delivery ∧
      delivery.finished = false ∧ InProgress before recipients frame ⟨started, delivery⟩ := by
  have member_eq : ∀ id ∈ recipients, started.member id =
      { before.member id with memSock := some (frame id), inMem := false } := fun id among =>
    prepared.chosen id (chosen id among).1 (chosen id among).2.1
  obtain ⟨set, set_eq, length_eq⟩ := @Delivery.addAll_ok started recipients
    (PollSet.ofSize recipients.length)
    (fun id among => by rw [member_eq id among]; exact are_open id among)
    (Nat.zero_add _).le
  have length_eq : set.length = recipients.length := length_eq.trans (Nat.zero_add _)
  refine ⟨{ set, socks := fun position => if position = 0 then none else recipients[position - 1]? },
    by rw [Delivery.start, set_eq]; rfl, rfl, ?_⟩
  have owed : ∀ id ∈ recipients, Owed before started frame id (frame id) := by
    intro id among
    refine ⟨?_, [], List.nil_append _, ?_⟩
    · rw [prepared.registered_eq]
      exact (chosen id among).2.2
    · rw [member_eq id among, List.append_nil]
  have is_held : ∀ id ∈ recipients, some id ∈ held
      (fun position => if position = 0 then none else recipients[position - 1]?) set.length := by
    intro id among
    obtain ⟨index, within, rfl⟩ := List.getElem_of_mem among
    refine mem_held.2 ⟨index + 1, Nat.succ_pos index, by omega, ?_⟩
    exact List.getElem?_eq_getElem within
  constructor
  case waiting =>
    intro position positive below
    have within : position - 1 < recipients.length := by
      have : position ≤ set.length := below
      omega
    have among : recipients[position - 1] ∈ recipients := List.getElem_mem within
    refine ⟨recipients[position - 1], _, ?_, among, List.not_mem_nil, ?_, ?_, owed _ among⟩
    · show (if position = 0 then none else recipients[position - 1]?) = _
      rw [if_neg positive.ne', List.getElem?_eq_getElem within]
    · rw [member_eq _ among]
    · rw [member_eq _ among]
  case distinct =>
    refine Multiset.Nodup.map_on ?_ (Multiset.nodup_range _)
    intro first first_within second _ same
    have within : first < recipients.length := by
      rw [← length_eq]
      exact Multiset.mem_range.1 first_within
    exact (List.getElem?_inj within distinct).1 same
  case complete =>
    intro id among _ not_held
    exact absurd (is_held id among) not_held
  case failed => exact fun id failed => absurd failed List.not_mem_nil
  case others =>
    intro id not_among
    refine ⟨?_, by rw [prepared.registered_eq]⟩
    by_cases matches_it : id ∈ matched
    · rw [prepared.queued id matches_it (others id matches_it not_among)]
    · rw [prepared.others id matches_it]
  case ready => exact .inl rfl

/-! ## Whole runs -/

/-- A message is being sent, or the time of the recipients that were left is over. -/
def Transmission.Sound (before : Database) (recipients : List Nat) (frame : Nat → Octets)
    (self : Transmission) : Prop :=
  InProgress before recipients frame self ∧
      (self.delivery.finished = true → self.delivery.set.length = 0) ∨
    self.delivery.finished = true ∧ Delivered before recipients frame self

theorem Transmission.Sound.delivered (sound : self.Sound before recipients frame) :
    Delivered before recipients frame self := by
  obtain ⟨progress, ends⟩ | ⟨_, delivered⟩ := sound
  · exact progress.delivered ends
  · exact delivered

/-- A step keeps the invariant if nothing that is excluded happens. -/
theorem Transmission.Sound.step (sound : self.Sound before recipients frame) {label : Progress}
    (stepped : Guarded Transmission.Whole Transmission.Steps self label next) :
    next.Sound before recipients frame := by
  obtain ⟨whole, possible, rfl⟩ := stepped
  have going_on : self.delivery.finished = false := by
    cases label with
    | poll polled => exact possible.1
    | timeout kept => exact possible.1
    | turn outputSpace written closing =>
        cases written with
        | accepted last => exact possible.1
        | raised => exact possible.1
  have progress : InProgress before recipients frame self := by
    obtain ⟨progress, _⟩ | ⟨finished, _⟩ := sound
    · exact progress
    · exact absurd (going_on.symm.trans finished) Bool.false_ne_true
  cases label with
  | poll polled =>
      exact .inl ⟨progress.poll polled, fun finished =>
        absurd (going_on.symm.trans finished) Bool.false_ne_true⟩
  | timeout kept => exact .inr ⟨rfl, progress.timeout whole⟩
  | turn outputSpace written closing =>
      cases written with
      | accepted last =>
          obtain rfl : last = self.chunk outputSpace := whole
          exact .inl (progress.turn going_on possible.2.1 closing (.inl rfl))
      | raised => exact .inl (progress.turn going_on possible.2 closing (.inr rfl))

/-- After the memory sends the recipients are waited for, if there are any. -/
theorem Database.broadcast_eq {before started : Database} {matching : Nat → Bool}
    {frame : Nat → Octets} {interrupted : Nat → Option Nat} {asynchronous : Bool}
    {recipients : List Nat}
    (initialized : Database.initializeRecipients frame interrupted asynchronous
      (before.matched matching) before = .ok recipients started) :
    Database.broadcast matching frame interrupted asynchronous before =
      if recipients = [] then
        .ok { set := PollSet.ofSize 0, socks := fun _ => none, finished := true } started
      else
        match Delivery.start started recipients with
        | .ok delivery => .ok delivery started
        | .error exn => .error exn started := by
  simp only [Database.broadcast, bind, EStateM.bind, get, getThe, MonadStateOf.get,
    AdaWebServer.Protected.get_returned, initialized]
  split_ifs
  · rfl
  · show (match Delivery.start started recipients with
      | .ok delivery => (pure delivery : Protected Delivery)
      | .error exn => throw exn) started = _
    cases Delivery.start started recipients <;> rfl

/-- A broadcast starts with the invariant. -/
theorem Transmission.sound_start {before : Database} {matching : Nat → Bool}
    (frame : Nat → Octets) {interrupted : Nat → Option Nat}
    (uninterrupted : ∀ id ∈ before.matched matching, interrupted id = none)
    (are_open : ∀ id ∈ before.recipients matching, 0 ≤ (before.member id).fd) :
    ∃ delivery started,
      Database.broadcast matching frame interrupted false before = .ok delivery started ∧
      (∀ id ∈ before.matched matching, id ∈ before.sending →
        (started.member id).messages = (before.member id).messages ++ [frame id]) ∧
      Transmission.Sound before (before.recipients matching) frame ⟨started, delivery⟩ := by
  have distinct : (before.matched matching).Nodup := (ascending_nodup _).filter _
  obtain ⟨started, initialized, prepared⟩ :=
    @Database.initializeRecipients_ok frame _ _ uninterrupted distinct false before
  have recipients_eq : ((before.matched matching).filter fun id =>
      ¬(false = true ∨ id ∈ before.sending)) = before.recipients matching := by
    simp only [Database.recipients, Bool.false_eq_true, false_or]
  rw [recipients_eq] at initialized
  have queued : ∀ id ∈ before.matched matching, id ∈ before.sending →
      (started.member id).messages = (before.member id).messages ++ [frame id] := by
    intro id among sending
    rw [prepared.queued id among (.inr sending)]
  have mem_recipients : ∀ id, id ∈ before.recipients matching ↔
      id ∈ before.matched matching ∧ id ∉ before.sending := by
    intro id
    rw [Database.recipients, List.mem_filter, decide_eq_true_iff]
  have others : ∀ id ∈ before.matched matching, id ∉ before.recipients matching →
      false = true ∨ id ∈ before.sending := by
    intro id among not_recipient
    by_contra not_sending
    exact not_recipient ((mem_recipients id).2 ⟨among, fun sending => not_sending (.inr sending)⟩)
  rw [Database.broadcast_eq initialized]
  by_cases nobody : before.recipients matching = []
  · refine ⟨_, started, if_pos nobody, queued, .inr ⟨rfl, ?_, fun _ failed => ?_, fun id _ => ?_⟩⟩
    · rw [nobody]
      exact fun id among => absurd among List.not_mem_nil
    · exact absurd failed List.not_mem_nil
    · refine ⟨?_, by rw [prepared.registered_eq]⟩
      by_cases among : id ∈ before.matched matching
      · rw [prepared.queued id among (others id among (nobody ▸ List.not_mem_nil))]
      · rw [prepared.others id among]
  · obtain ⟨delivery, delivery_eq, going_on, progress⟩ := InProgress.start prepared
      (distinct.filter fun id => id ∉ before.sending)
      (fun id among => by
        obtain ⟨matched, not_sending⟩ := (mem_recipients id).1 among
        have registered := mem_ascending.1 (List.mem_filter.1 matched).1
        exact ⟨matched, fun queues => not_sending (queues.resolve_left Bool.false_ne_true),
          registered⟩)
      others are_open
    refine ⟨delivery, started, ?_, queued, .inl ⟨progress, fun finished =>
      absurd (going_on.symm.trans finished) Bool.false_ne_true⟩⟩
    rw [if_neg nobody]
    show (match Delivery.start started (before.recipients matching) with
      | .ok delivery => (EStateM.Result.ok delivery started : EStateM.Result Exn Database Delivery)
      | .error exn => .error exn started) = _
    rw [show Delivery.start started (before.recipients matching) = .ok delivery from delivery_eq]

/-- A synchronous `Send` to all objects that match, whatever the sockets do: if no exception interrupts
the memory sends, no recipient has been closed, and nothing of what is excluded happens, every
recipient that has not failed gets its frame. -/
theorem delivered_of_run {before : Database} {matching : Nat → Bool} {frame : Nat → Octets}
    {interrupted : Nat → Option Nat}
    (uninterrupted : ∀ id ∈ before.matched matching, interrupted id = none)
    (are_open : ∀ id ∈ before.recipients matching, 0 ≤ (before.member id).fd) :
    ∃ delivery started,
      Database.broadcast matching frame interrupted false before = .ok delivery started ∧
      (∀ id ∈ before.matched matching, id ∈ before.sending →
        (started.member id).messages = (before.member id).messages ++ [frame id]) ∧
      ∀ {labels final},
        Run (Guarded Transmission.Whole Transmission.Steps) ⟨started, delivery⟩ labels final →
          Delivered before (before.recipients matching) frame final := by
  obtain ⟨delivery, started, broadcast_eq, queued, sound⟩ :=
    Transmission.sound_start frame uninterrupted are_open
  exact ⟨delivery, started, broadcast_eq, queued, fun run =>
    (run.invariant (Transmission.Sound before (before.recipients matching) frame) sound
      fun sound stepped => sound.step stepped).delivered⟩

/-! ## Three recipients -/

/-- Three objects that are registered. -/
def threeOpen : Database where
  registered := {0, 1, 2}
  member id := { fd := id + 3 }

/-- A frame for each of them. -/
def threeFrames (id : Nat) : Octets := [129, 1, 65 + id.toUInt8]

/-- The start of a broadcast to them. -/
def threeStart : Transmission :=
  match Database.broadcast (fun _ => true) threeFrames (fun _ => none) false threeOpen with
  | .ok delivery database => { database, delivery }
  | .error _ database =>
      { database, delivery := { set := PollSet.ofSize 0, socks := fun _ => none } }

/-- The first one is written to in two parts, the second one fails. -/
def secondFails : List Progress :=
  [.poll fun _ => {.pollout}, .turn (some 2) (.accepted 2) [], .turn none .raised [136, 0],
    .turn none (.accepted 3) [], .poll fun _ => {.pollout}, .turn none (.accepted 1) []]

/-- A failure in the middle of a broadcast does not matter to the other recipients. -/
theorem delivered_three : ∃ final,
    Run (Guarded Transmission.Whole Transmission.Steps) threeStart secondFails final ∧
      final.delivery.finished = true ∧ final.delivery.failed = [1] ∧
      Delivered threeOpen [0, 1, 2] threeFrames final := by
  have run : Run (Guarded Transmission.Whole Transmission.Steps) threeStart secondFails
      (secondFails.foldl Transmission.step threeStart) :=
    (@Execution.run_of_allPossible _ _ _
      (fun state label => state.Whole label ∧ Transmission.Possible state label) _
      Transmission.step secondFails (by decide +kernel)).mono
        fun ⟨⟨whole, possible⟩, stepped⟩ => ⟨whole, possible, stepped⟩
  obtain ⟨delivery, started, broadcast_eq, _, all⟩ := @delivered_of_run threeOpen (fun _ => true)
    threeFrames (fun _ => none) (fun _ _ => rfl) (by decide +kernel)
  have start_eq : threeStart = ⟨started, delivery⟩ := by
    rw [threeStart, broadcast_eq]
  have recipients_eq : threeOpen.recipients (fun _ => true) = [0, 1, 2] := by decide +kernel
  refine ⟨_, run, by decide +kernel, by decide +kernel, ?_⟩
  rw [← recipients_eq]
  rw [start_eq] at run ⊢
  exact all run

/-- A socket takes one of the three octets that are written to it, and the other two are lost: the
recipient stays registered without the rest of its frame. -/
theorem partial_write_truncates : ∃ final,
    Run Transmission.Steps threeStart
      [.poll fun position => if position = 1 then {.pollout} else ∅, .turn none (.accepted 1) [],
        .poll fun _ => {.pollout}, .turn none (.accepted 0) [], .turn none (.accepted 3) [],
        .turn none (.accepted 3) []] final ∧
      final.delivery.finished = true ∧ final.delivery.failed = [] ∧
      ¬Delivered threeOpen [0, 1, 2] threeFrames final := by
  refine ⟨_, Execution.run_of_allPossible (by decide +kernel), by decide +kernel, by decide +kernel,
    ?_⟩
  intro delivered
  obtain ⟨rest, ⟨_, part, split, written⟩, complete⟩ :=
    delivered.kept 0 (by decide) (by decide +kernel)
  rw [complete (by decide +kernel), List.append_nil] at split
  rw [split] at written
  revert written
  decide +kernel

end WebSocket
end AdaWebServer

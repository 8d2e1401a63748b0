import Mathlib.Tactic.Abel
import AdaWebServer.Net.Acceptors

/-!
# The sockets of an acceptor

Every socket that is handed to an acceptor is in one place: in the give-back box, in the set, in the
list of sockets to close, with a caller or closed.  The index may be two positions above the last
socket, after a socket has been closed to make room for others.
-/

namespace AdaWebServer
namespace Net

open Execution Slots

variable {σ δ : Type}

/-! ## The sockets of a set -/

/-- The sockets at the positions of a set. -/
def SocketSet.sockets (set : SocketSet σ δ) : Multiset σ :=
  (held (fun position => set.getSocket position) set.count).filterMap id

/-- The sockets of a ledger. -/
def Ledger.sockets (ledger : Ledger σ δ) : Multiset σ :=
  (held (fun position => (ledger.occupant position).socket) ledger.count).filterMap id

theorem Ledger.sockets_add (ledger : Ledger σ δ) (socket : σ) (data : Option δ)
    (mode : WaitEventSet) :
    (ledger.add { socket := some socket, data, mode }).sockets = socket ::ₘ ledger.sockets := by
  have moved : (fun position => ((ledger.add { socket := some socket, data, mode }).occupant
      position).socket) =
      Function.update (fun position => (ledger.occupant position).socket) (ledger.count + 1)
        (some socket) :=
    Function.comp_update Occupant.socket ledger.occupant _ _
  show (held _ (ledger.count + 1)).filterMap id = _
  rw [moved, held_add, Multiset.filterMap_cons_some id (some socket) _ rfl, Ledger.sockets]

theorem Ledger.sockets_remove {ledger : Ledger σ δ} {index : Nat} {socket : σ}
    (positive : 0 < index) (within : index ≤ ledger.count)
    (present : (ledger.occupant index).socket = some socket) :
    socket ::ₘ (ledger.remove index).sockets = ledger.sockets := by
  have moved : (fun position => ((ledger.remove index).occupant position).socket) =
      moveTo (fun position => (ledger.occupant position).socket) index ledger.count :=
    Function.comp_update Occupant.socket ledger.occupant _ _
  show _ ::ₘ (held _ (ledger.count - 1)).filterMap id = _
  rw [moved, Ledger.sockets, ← held_moveTo positive within, present,
    Multiset.filterMap_cons_some id (some socket) _ rfl]

theorem Ledger.sockets_wait (ledger : Ledger σ δ) (polled : Nat → EventsType) :
    (ledger.wait polled).sockets = ledger.sockets := rfl

variable {getFd : σ → Int}

theorem SocketSet.Corresponds.getSocket {set : SocketSet σ δ} {ledger : Ledger σ δ}
    (corresponds : set.Corresponds getFd ledger) {position : Nat} (positive : 0 < position)
    (within : position ≤ ledger.count) :
    set.getSocket position = (ledger.occupant position).socket ∧
      (ledger.occupant position).socket.isSome = true := by
  rw [← SocketSet.Corresponds.count corresponds] at within
  cases set with
  | none => exact absurd within (Nat.not_le_of_lt positive)
  | some contents =>
      have here := Contents.Corresponds.positions corresponds position positive within
      exact ⟨here.socket, here.present⟩

theorem SocketSet.Corresponds.sockets {set : SocketSet σ δ} {ledger : Ledger σ δ}
    (corresponds : set.Corresponds getFd ledger) : set.sockets = ledger.sockets := by
  rw [SocketSet.sockets, Ledger.sockets, SocketSet.Corresponds.count corresponds]
  congr 1
  apply held_congr
  intro position positive within
  exact (SocketSet.Corresponds.getSocket corresponds positive within).1

/-! ## Operations that succeed -/

theorem Tracked.ledger_add {self : Tracked σ δ}
    (corresponds : self.set.Corresponds getFd self.ledger) {socket : σ}
    (described : 0 ≤ getFd socket) (allocated : Bool) (data : Option δ) (mode : WaitEventSet) :
    (self.step getFd (.add socket allocated data mode)).ledger =
      self.ledger.add { socket := some socket, data, mode } := by
  obtain ⟨next, returned⟩ := SocketSet.add_described corresponds described allocated data mode
  rw [Tracked.step, SetOperation.run, returned]
  rfl

theorem Tracked.ledger_remove {self : Tracked σ δ}
    (corresponds : self.set.Corresponds getFd self.ledger) {index : Nat} (positive : 0 < index)
    (within : index ≤ self.ledger.count) :
    (self.step getFd (.removeSocket index)).ledger = self.ledger.remove index := by
  have in_set := within
  rw [← SocketSet.Corresponds.count corresponds] at in_set
  obtain ⟨_ | contents, ledger⟩ := self
  · exact absurd in_set (Nat.not_le_of_lt positive)
  · obtain ⟨poll, _, returned⟩ := SocketSet.removeSocket_eq corresponds ⟨positive, in_set⟩
    have done : SetOperation.run getFd (.removeSocket index) (some contents) =
        .ok () (some { contents with
          poll, set := contents.set.compact index contents.poll.length }) := by
      show EStateM.bind (SocketSet.removeSocket index) _ _ = _
      rw [EStateM.bind, returned]
      rfl
    rw [Tracked.step, done]
    rfl

theorem Tracked.ledger_wait {self : Tracked σ δ} (polled : Nat → EventsType) :
    (self.step getFd (.wait polled)).ledger = self.ledger.wait polled := by
  obtain ⟨_ | contents, ledger⟩ := self
  · rfl
  · rfl

/-! ## The invariant -/

namespace Acceptor

variable {config : AcceptorConfig σ δ}

/-- The sockets to close. -/
def toClose (self : Acceptor σ δ) : Multiset σ :=
  self.call.elim 0 fun call => (call.toClose : Multiset σ)

/-- The sockets in the give-back box. -/
def boxed (self : Acceptor σ δ) : Multiset σ := (self.box.map Prod.fst : Multiset σ)

/-- What a pass has found: the oldest position is one that it has passed, with the shortest of the
times that are left to the sockets that it has examined. -/
structure Found (acceptor : Acceptor σ δ) (pass : Pass σ) : Prop where
  oldest : 0 < pass.oldestIdx → acceptor.index ≤ acceptor.last + 1 ∧ 2 ≤ pass.oldestIdx ∧
    pass.oldestIdx < acceptor.index ∧ ∃ socket, (acceptor.set.ledger.occupant pass.oldestIdx).socket =
      some socket ∧ (socket, pass.waitTimeout) ∈ pass.examined
  least : ∀ entry ∈ pass.examined, pass.waitTimeout ≤ entry.2

theorem Found.of_eq {before after : Acceptor σ δ} {pass : Pass σ} (found : before.Found pass)
    (set_eq : after.set = before.set) (index_eq : after.index = before.index)
    (last_eq : after.last = before.last) : after.Found pass := by
  refine ⟨?_, found.least⟩
  rw [set_eq, index_eq, last_eq]
  exact found.oldest

/-- What holds of an acceptor. -/
structure Sound (config : AcceptorConfig σ δ) (acceptor : Acceptor σ δ) : Prop where
  corresponds : acceptor.set.set.Corresponds config.getFd acceptor.set.ledger
  balanced : acceptor.set.ledger.Balanced
  conserved : acceptor.boxed + acceptor.set.ledger.sockets + acceptor.toClose + acceptor.returned + acceptor.closed =
    acceptor.handed
  once : acceptor.handed.Nodup
  described : ∀ entry ∈ acceptor.box, 0 ≤ config.getFd entry.1
  running : acceptor.call.isSome = true → 0 < acceptor.set.ledger.count
  index : 2 ≤ acceptor.index
  pointers : 0 < acceptor.set.ledger.count →
    acceptor.index ≤ acceptor.set.ledger.count + 2 ∧ acceptor.last ≤ acceptor.set.ledger.count
  found : ∀ call ∈ acceptor.call, ∀ pass, call.phase = .readReady pass → acceptor.Found pass

variable {self : Acceptor σ δ}

theorem Sound.raised (sound : self.Sound config) {call : GetCall σ} (calling : self.call = some call) :
    (self.raised call).Sound config := by
  refine ⟨sound.corresponds, sound.balanced, ?_, sound.once, sound.described, nofun, sound.index,
    sound.pointers, nofun⟩
  rw [← show self.handed = (self.raised call).handed from rfl, ← sound.conserved]
  show self.boxed + self.set.ledger.sockets + 0 + self.returned + (self.closed + call.toClose) = _
  rw [toClose, calling, Option.elim_some]
  abel

/-- `Get` goes on with the same list of sockets to close. -/
theorem Sound.goesOn (sound : self.Sound config) {call next : GetCall σ}
    (calling : self.call = some call) (same : next.toClose = call.toClose)
    (found : ∀ pass, next.phase = .readReady pass → self.Found pass) :
    (self.goesOn next).Sound config := by
  refine ⟨sound.corresponds, sound.balanced, ?_, sound.once, sound.described,
    fun _ => sound.running (by rw [calling]; rfl), sound.index, sound.pointers, ?_⟩
  · rw [← show self.handed = (self.goesOn next).handed from rfl, ← sound.conserved]
    show self.boxed + self.set.ledger.sockets + (next.toClose : Multiset σ) + _ + _ = _
    rw [same, toClose, calling, Option.elim_some]
    rfl
  · rintro _ ⟨⟩ pass reading
    exact (found pass reading).of_eq rfl rfl rfl

/-- The index moves. -/
theorem Sound.moveIndex (sound : self.Sound config) {index : Nat} (low : 2 ≤ index)
    (high : 0 < self.set.ledger.count → index ≤ self.set.ledger.count + 2)
    (found : ∀ call ∈ self.call, ∀ pass, call.phase = .readReady pass →
      Found { self with index } pass) :
    Sound config { self with index } :=
  ⟨sound.corresponds, sound.balanced, sound.conserved, sound.once, sound.described, sound.running,
    low, fun positive => ⟨high positive, (sound.pointers positive).2⟩, found⟩

/-- What is known of the socket at a position. -/
theorem Sound.present (sound : self.Sound config) {index : Nat} (positive : 0 < index)
    (within : index ≤ self.set.ledger.count) :
    self.set.set.InRange index ∧ ∃ socket, self.set.set.getSocket index = some socket ∧
      (self.set.ledger.occupant index).socket = some socket := by
  obtain ⟨same, present⟩ := SocketSet.Corresponds.getSocket sound.corresponds positive within
  obtain ⟨socket, is_socket⟩ := Option.isSome_iff_exists.mp present
  have got := same.trans is_socket
  refine ⟨⟨positive, ?_, ?_⟩, socket, got, is_socket⟩
  · rw [SocketSet.Corresponds.count sound.corresponds]
    exact within
  · show (self.set.set.getSocket index).isSome = true
    rw [got]
    rfl

/-- A socket is taken out of the set and put into another place. -/
theorem Sound.takeOut (sound : self.Sound config) {index : Nat} {socket : σ} (low : 2 ≤ index)
    (high : index ≤ self.last) (within : self.last ≤ self.set.ledger.count)
    (pointed : self.index ≤ self.set.ledger.count + 1)
    (present : (self.set.ledger.occupant index).socket = some socket)
    {next : Acceptor σ δ} (set_eq : next.set = (self.takeOut config index).set)
    (index_eq : next.index = self.index) (last_eq : next.last = self.last - 1)
    (box_eq : next.box = self.box) (handed_eq : next.handed = self.handed)
    (places : next.toClose + next.returned + next.closed =
      socket ::ₘ (self.toClose + self.returned + self.closed))
    (found : ∀ call ∈ next.call, ∀ pass, call.phase = .readReady pass → next.Found pass) :
    next.Sound config := by
  have ledger_eq : next.set.ledger = self.set.ledger.remove index := by
    rw [set_eq]
    exact Tracked.ledger_remove sound.corresponds (by omega) (by omega)
  have kept := Tracked.step_faithful sound.corresponds sound.balanced
    (show SetOperation.Pre config.getFd self.set.set (.removeSocket index) from
      (sound.present (by omega) (by omega)).1)
  have count_eq : next.set.ledger.count = self.set.ledger.count - 1 := by
    rw [ledger_eq]
    rfl
  refine ⟨?_, ?_, ?_, ?_, ?_, ?_, ?_, ?_, found⟩
  · rw [set_eq]
    exact kept.1
  · rw [set_eq]
    exact kept.2
  · have sockets := Ledger.sockets_remove (show 0 < index by omega)
      (show index ≤ self.set.ledger.count by omega) present
    rw [handed_eq, ← sound.conserved, ← sockets, ledger_eq, boxed, box_eq, ← boxed]
    calc self.boxed + (self.set.ledger.remove index).sockets + next.toClose + next.returned +
          next.closed
        = self.boxed + (self.set.ledger.remove index).sockets +
            (next.toClose + next.returned + next.closed) := by abel
      _ = _ := by
          rw [places, ← Multiset.singleton_add, ← Multiset.singleton_add]
          abel
  · rw [handed_eq]
    exact sound.once
  · rw [box_eq]
    exact sound.described
  · intro _
    omega
  · rw [index_eq]
    exact sound.index
  · intro _
    rw [index_eq, last_eq, count_eq]
    omega

/-- A socket is put into the set. -/
theorem Sound.putIn (sound : self.Sound config) (running : 0 < self.set.ledger.count) {socket : σ}
    (described : 0 ≤ config.getFd socket) (allocated : Bool) (data : SocketData δ)
    {next : Acceptor σ δ} (set_eq : next.set = (self.putIn config socket allocated data).set)
    (low : 2 ≤ next.index) (high : next.index ≤ self.set.ledger.count + 3)
    (last_eq : next.last = self.last) (boxes : ∀ entry ∈ next.box, entry ∈ self.box)
    (places : socket ::ₘ (next.boxed + next.toClose + next.returned + next.closed) + self.handed =
      self.boxed + self.toClose + self.returned + self.closed + next.handed)
    (once : next.handed.Nodup)
    (found : ∀ call ∈ next.call, ∀ pass, call.phase = .readReady pass → next.Found pass) :
    next.Sound config := by
  have ledger_eq : next.set.ledger =
      self.set.ledger.add { socket := some socket, data := some data, mode := inputMode } := by
    rw [set_eq]
    exact Tracked.ledger_add sound.corresponds described allocated (some data) inputMode
  have kept := Tracked.step_faithful sound.corresponds sound.balanced
    (show SetOperation.Pre config.getFd self.set.set
      (.add socket allocated (some data) inputMode) from .inr described)
  have count_eq : next.set.ledger.count = self.set.ledger.count + 1 := by
    rw [ledger_eq]
    rfl
  refine ⟨?_, ?_, ?_, once, fun entry among => sound.described entry (boxes entry among), ?_, low,
    ?_, found⟩
  · rw [set_eq]
    exact kept.1
  · rw [set_eq]
    exact kept.2
  · have all := congrArg (· + self.set.ledger.sockets) places
    rw [← sound.conserved, ← Multiset.singleton_add] at all
    have sockets := Ledger.sockets_add self.set.ledger socket (some data) inputMode
    rw [ledger_eq, sockets, ← Multiset.singleton_add]
    apply add_left_cancel
      (a := self.boxed + self.set.ledger.sockets + self.toClose + self.returned + self.closed)
    calc _ = {socket} + (next.boxed + next.toClose + next.returned + next.closed) +
          (self.boxed + self.set.ledger.sockets + self.toClose + self.returned + self.closed) +
          self.set.ledger.sockets := by abel
      _ = self.boxed + self.toClose + self.returned + self.closed + next.handed +
          self.set.ledger.sockets := all
      _ = _ := by abel
  · intro _
    omega
  · intro _
    have := (sound.pointers running).2
    rw [last_eq, count_eq]
    omega

/-! ## The loop `Read_Ready` -/

/-- The index advances; the positions that it has passed keep their occupants. -/
theorem Found.advance {before after : Acceptor σ δ} {pass : Pass σ} (found : before.Found pass)
    (scanning : before.index ≤ before.last) (index_eq : after.index = before.index + 1)
    (last_eq : after.last = before.last)
    (same : ∀ position, position < before.index →
      after.set.ledger.occupant position = before.set.ledger.occupant position) :
    after.Found pass := by
  refine ⟨?_, found.least⟩
  intro positive
  obtain ⟨_, low, high, socket, occupant, examined⟩ := found.oldest positive
  rw [index_eq, last_eq, same _ high]
  exact ⟨by omega, low, by omega, socket, occupant, examined⟩

/-- The socket at the index is taken out. -/
theorem Found.takeOut {before after : Acceptor σ δ} {pass : Pass σ} (found : before.Found pass)
    (scanning : before.index ≤ before.last) (index_eq : after.index = before.index)
    (last_eq : after.last = before.last - 1)
    (ledger_eq : after.set.ledger = before.set.ledger.remove before.index) :
    after.Found pass := by
  refine ⟨?_, found.least⟩
  intro positive
  obtain ⟨_, low, high, socket, occupant, examined⟩ := found.oldest positive
  rw [index_eq, last_eq, ledger_eq]
  refine ⟨by omega, low, high, socket, ?_, examined⟩
  rw [← occupant]
  exact congrArg Occupant.socket (Function.update_of_ne (Nat.ne_of_lt high) _ _)

theorem Sound.beginPass (sound : self.Sound config) {call : GetCall σ}
    (calling : self.call = some call) : (self.beginPass config call).Sound config := by
  rw [Acceptor.beginPass]
  refine sound.goesOn calling ?_ ?_
  · rfl
  · intro pass reading
    cases reading
    split_ifs
    · exact ⟨fun positive => absurd positive (Nat.lt_irrefl 0), nofun⟩
    · exact ⟨fun positive => absurd positive (Nat.lt_irrefl 0), nofun⟩

section Scan

variable {call : GetCall σ} {pass : Pass σ}

/-- Nothing happens at the socket at the index. -/
theorem Sound.skip (sound : self.Sound config) (calling : self.call = some call)
    (reading : call.phase = .readReady pass) (scanning : self.index ≤ self.last) {next : GetCall σ}
    (same : next.toClose = call.toClose) (same_phase : next.phase = call.phase) :
    Sound config { self.goesOn next with index := self.index + 1 } := by
  have running := sound.running (by rw [calling]; rfl)
  have found := sound.found call calling pass reading
  have went : (self.goesOn next).Sound config := by
    apply sound.goesOn calling same
    intro other other_reading
    rw [same_phase] at other_reading
    exact sound.found call calling other other_reading
  apply went.moveIndex (show 2 ≤ self.index + 1 from Nat.le_succ_of_le sound.index)
  · intro _
    have := (sound.pointers running).2
    show self.index + 1 ≤ self.set.ledger.count + 2
    omega
  · rintro _ ⟨⟩ other other_reading
    rw [same_phase, reading] at other_reading
    cases other_reading
    exact found.advance scanning rfl rfl fun _ _ => rfl

theorem Sound.acceptListening (sound : self.Sound config) (calling : self.call = some call)
    (reading : call.phase = .readReady pass) (scanning : self.index ≤ self.last) (events : EventSet)
    (clock : Int) {accepted : Option σ}
    (fresh : ∀ socket ∈ accepted, 0 ≤ config.getFd socket ∧ socket ∉ self.handed) :
    (self.acceptListening config call events clock accepted).Sound config := by
  have running := sound.running (by rw [calling]; rfl)
  have last_le := (sound.pointers running).2
  have found := sound.found call calling pass reading
  have unchanged : { self with index := self.index + 1 } =
      { self.goesOn call with index := self.index + 1 } := by
    rw [Acceptor.goesOn, calling]
  rw [Acceptor.acceptListening.eq_def]
  by_cases failed : events.error = true
  · rw [if_pos failed]
    exact sound.raised calling
  rw [if_neg failed]
  by_cases ready : events.input = true
  · rw [if_pos ready]
    cases accepted with
    | some socket =>
        obtain ⟨described, unknown⟩ := fresh socket rfl
        dsimp only
        refine sound.putIn running described true
          { time := clock, data := config.noData, first := true } ?_ ?_ ?_ ?_ ?_ ?_ ?_ ?_
        · rfl
        · exact Nat.le_succ_of_le sound.index
        · show self.index + 1 ≤ _
          omega
        · rfl
        · exact fun _ among => among
        · show socket ::ₘ (self.boxed + self.toClose + self.returned + self.closed) + self.handed =
            self.boxed + self.toClose + self.returned + self.closed + socket ::ₘ self.handed
          rw [Multiset.cons_add, Multiset.add_cons]
        · exact Multiset.nodup_cons.mpr ⟨unknown, sound.once⟩
        · intro other calling_other other_pass other_reading
          rw [show self.call = some other from calling_other] at calling
          cases calling
          rw [reading] at other_reading
          cases other_reading
          refine found.advance scanning rfl rfl ?_
          intro position earlier
          show (Tracked.step config.getFd self.set _).ledger.occupant position = _
          rw [Tracked.ledger_add sound.corresponds described]
          exact Function.update_of_ne (by omega) _ _
    | none =>
        dsimp only
        by_cases handler : call.hasOnError = true
        · rw [if_pos handler]
          exact sound.skip calling reading scanning rfl rfl
        · rw [if_neg handler]
          exact sound.raised calling
  · rw [if_neg ready, unchanged]
    exact sound.skip calling reading scanning rfl rfl

/-- The socket at the index is taken out and put on the list of sockets to close. -/
theorem Sound.closeAtIndex (sound : self.Sound config) (calling : self.call = some call)
    (reading : call.phase = .readReady pass) (scanning : self.index ≤ self.last) {socket : σ}
    (present : (self.set.ledger.occupant self.index).socket = some socket) :
    Sound config ((self.takeOut config self.index).goesOn
      { call with toClose := call.toClose ++ [socket] }) := by
  have running := sound.running (by rw [calling]; rfl)
  have last_le := (sound.pointers running).2
  have low := sound.index
  apply sound.takeOut low scanning last_le (by omega) present
  · rfl
  · rfl
  · rfl
  · rfl
  · rfl
  · show ((call.toClose ++ [socket] : List σ) : Multiset σ) + self.returned + self.closed = _
    rw [toClose, calling, Option.elim_some, ← Multiset.coe_add, Multiset.coe_singleton,
      ← Multiset.singleton_add]
    abel
  · rintro _ ⟨⟩ other other_reading
    rw [show call.phase = .readReady other from other_reading] at reading
    cases reading
    refine (sound.found call calling pass other_reading).takeOut scanning rfl rfl ?_
    exact Tracked.ledger_remove sound.corresponds (by omega) (by omega)

theorem Sound.checkTimeout (sound : self.Sound config) (calling : self.call = some call)
    (reading : call.phase = .readReady pass) (scanning : self.index ≤ self.last) {socket : σ}
    (present : (self.set.ledger.occupant self.index).socket = some socket) (data : SocketData δ)
    (clock : Int) : (self.checkTimeout config call pass socket data clock).Sound config := by
  have running := sound.running (by rw [calling]; rfl)
  have last_le := (sound.pointers running).2
  have found := sound.found call calling pass reading
  rw [Acceptor.checkTimeout]
  generalize (if data.first then pass.first else pass.notFirst) - (clock - data.time) = diff
  dsimp only
  by_cases expired : diff ≤ 0
  · rw [if_pos expired]
    exact sound.closeAtIndex calling reading scanning present
  · rw [if_neg expired]
    have here : (socket, diff) ∈ pass.examined ++ [(socket, diff)] :=
      List.mem_append_right _ (List.mem_singleton.mpr rfl)
    have went : (self.goesOn { call with phase := .begin }).Sound config :=
      sound.goesOn calling rfl nofun
    refine ⟨went.corresponds, went.balanced, went.conserved, went.once, went.described,
      went.running, Nat.le_succ_of_le sound.index, fun _ => ⟨?_, last_le⟩, ?_⟩
    · show self.index + 1 ≤ self.set.ledger.count + 2
      omega
    · rintro _ ⟨⟩ other other_reading
      cases other_reading
      by_cases shorter : diff < pass.waitTimeout
      · rw [if_pos shorter]
        refine ⟨fun _ => ⟨?_, sound.index, Nat.lt_succ_self _, socket, present, here⟩, ?_⟩
        · show self.index + 1 ≤ self.last + 1
          omega
        · intro entry among
          rcases List.mem_append.mp among with before | now
          · exact (Int.le_of_lt shorter).trans (found.least entry before)
          · rw [List.mem_singleton.mp now]
      · rw [if_neg shorter]
        refine ⟨?_, ?_⟩
        · intro positive
          obtain ⟨_, low, high, old, occupant, examined⟩ := found.oldest positive
          refine ⟨?_, low, Nat.lt_succ_of_lt high, old, occupant, List.mem_append_left _ examined⟩
          show self.index + 1 ≤ self.last + 1
          omega
        · intro entry among
          rcases List.mem_append.mp among with before | now
          · exact found.least entry before
          · rw [List.mem_singleton.mp now]
            exact Int.not_lt.mp shorter

/-- A socket with an event is returned. -/
theorem Sound.returnAtIndex (sound : self.Sound config) (calling : self.call = some call)
    (scanning : self.index ≤ self.last) {socket : σ}
    (present : (self.set.ledger.occupant self.index).socket = some socket) :
    Sound config ((self.takeOut config self.index).returns call socket) := by
  have running := sound.running (by rw [calling]; rfl)
  have last_le := (sound.pointers running).2
  apply sound.takeOut sound.index scanning last_le (by omega) present
  · rfl
  · rfl
  · rfl
  · rfl
  · rfl
  · show 0 + socket ::ₘ self.returned + (self.closed + (call.toClose : Multiset σ)) = _
    rw [toClose, calling, Option.elim_some, ← Multiset.singleton_add, ← Multiset.singleton_add]
    abel
  · exact fun _ returned => nomatch returned

theorem Sound.examine (sound : self.Sound config) (calling : self.call = some call)
    (reading : call.phase = .readReady pass) (scanning : self.index ≤ self.last) (clock : Int)
    {accepted : Option σ}
    (fresh : ∀ socket ∈ accepted, 0 ≤ config.getFd socket ∧ socket ∉ self.handed) :
    (self.examine config call pass clock accepted).Sound config := by
  have running := sound.running (by rw [calling]; rfl)
  have last_le := (sound.pointers running).2
  have low := sound.index
  obtain ⟨_, socket, got, present⟩ := sound.present (show 0 < self.index by omega)
    (show self.index ≤ self.set.ledger.count by omega)
  rw [Acceptor.examine, got]
  cases self.set.set.status self.index with
  | error exn => exact sound.raised calling
  | ok events =>
      dsimp only
      split_ifs
      · exact sound.acceptListening calling reading scanning events clock fresh
      · exact sound.closeAtIndex calling reading scanning present
      · exact sound.returnAtIndex calling scanning present
      · exact sound.checkTimeout calling reading scanning present _ clock

theorem Sound.makeRoom (sound : self.Sound config) (calling : self.call = some call)
    (reading : call.phase = .readReady pass) : (self.makeRoom config call pass).Sound config := by
  have running := sound.running (by rw [calling]; rfl)
  have last_le := (sound.pointers running).2
  have found := sound.found call calling pass reading
  rw [Acceptor.makeRoom]
  cases chosen : self.oldest config pass with
  | none => exact sound.goesOn calling rfl nofun
  | some socket =>
      rw [oldest] at chosen
      split_ifs at chosen with some_oldest
      obtain ⟨passed, low, high, other, occupant, _⟩ := found.oldest some_oldest.1
      obtain ⟨_, got, is_got, is_occupant⟩ := sound.present (show 0 < pass.oldestIdx by omega)
        (show pass.oldestIdx ≤ self.set.ledger.count by omega)
      rw [chosen] at is_got
      cases is_got
      apply sound.takeOut low (by omega) last_le (by omega) is_occupant
      · rfl
      · rfl
      · rfl
      · rfl
      · rfl
      · show ((call.toClose ++ [socket] : List σ) : Multiset σ) + self.returned + self.closed = _
        rw [toClose, calling, Option.elim_some, ← Multiset.coe_add, Multiset.coe_singleton,
          ← Multiset.singleton_add]
        abel
      · rintro _ ⟨⟩ other waiting
        cases waiting

end Scan

/-! ## Waiting and taking sockets into the set -/

/-- The system has reported events. -/
theorem Sound.waited (sound : self.Sound config) (polled : Nat → EventsType) {next : Acceptor σ δ}
    (set_eq : next.set = (self.onSet config (.wait polled)).set) (index_eq : next.index = self.index)
    (last_le : next.last ≤ self.set.ledger.count) (box_eq : next.box = self.box)
    (handed_eq : next.handed = self.handed)
    (places : next.toClose + next.returned + next.closed =
      self.toClose + self.returned + self.closed)
    (running : 0 < self.set.ledger.count)
    (found : ∀ call ∈ next.call, ∀ pass, call.phase = .readReady pass → next.Found pass) :
    next.Sound config := by
  have ledger_eq : next.set.ledger = self.set.ledger.wait polled := by
    rw [set_eq]
    exact Tracked.ledger_wait polled
  have kept := Tracked.step_faithful sound.corresponds sound.balanced
    (show SetOperation.Pre config.getFd self.set.set (.wait polled) from trivial)
  have count_eq : next.set.ledger.count = self.set.ledger.count := by
    rw [ledger_eq]
    rfl
  refine ⟨?_, ?_, ?_, ?_, ?_, ?_, ?_, ?_, found⟩
  · rw [set_eq]
    exact kept.1
  · rw [set_eq]
    exact kept.2
  · rw [handed_eq, ← sound.conserved, ledger_eq, Ledger.sockets_wait, boxed, box_eq, ← boxed]
    calc _ = self.boxed + self.set.ledger.sockets +
          (next.toClose + next.returned + next.closed) := by abel
      _ = _ := by
          rw [places]
          abel
  · rw [handed_eq]
    exact sound.once
  · rw [box_eq]
    exact sound.described
  · exact fun _ => running.trans_eq count_eq.symm
  · rw [index_eq]
    exact sound.index
  · intro _
    rw [index_eq, count_eq]
    exact ⟨(sound.pointers running).1, last_le⟩

theorem Sound.wait (sound : self.Sound config) {call : GetCall σ} (calling : self.call = some call)
    (waiting : call.phase = .waiting) (outcome : Option (Nat → EventsType)) :
    (self.wait config call outcome).Sound config := by
  have running := sound.running (by rw [calling]; rfl)
  have last_le := (sound.pointers running).2
  have listed : self.toClose = (call.toClose : Multiset σ) := by
    rw [toClose, calling, Option.elim_some]
  cases outcome with
  | none =>
      rw [Acceptor.wait]
      by_cases handler : call.hasOnError = true
      · rw [if_pos handler]
        refine sound.goesOn calling ?_ nofun
        rfl
      · rw [if_neg handler]
        exact sound.raised calling
  | some polled =>
      have count_le : (self.onSet config (.wait polled)).set.set.count ≤ self.set.ledger.count := by
        have kept := Tracked.step_faithful sound.corresponds sound.balanced
          (show SetOperation.Pre config.getFd self.set.set (.wait polled) from trivial)
        show (self.set.step config.getFd (.wait polled)).set.count ≤ _
        rw [SocketSet.Corresponds.count kept.1, Tracked.ledger_wait]
        rfl
      have finished : Sound config
          { (self.onSet config (.wait polled)).goesOn { call with phase := .addSockets } with
            last := (self.onSet config (.wait polled)).set.set.count } := by
        refine sound.waited polled ?_ ?_ count_le ?_ ?_ ?_ running ?_
        · rfl
        · rfl
        · rfl
        · rfl
        · show (call.toClose : Multiset σ) + self.returned + self.closed = _
          rw [listed]
        · rintro _ ⟨⟩ pass reading
          cases reading
      rw [Acceptor.wait]
      cases to_close : call.toClose with
      | nil =>
          rw [to_close] at finished
          exact finished
      | cons socket rest =>
          dsimp only
          split_ifs
          · rw [to_close] at finished
            exact finished
          · refine sound.waited polled ?_ ?_ last_le ?_ ?_ ?_ running ?_
            · rfl
            · rfl
            · rfl
            · rfl
            · show (rest : Multiset σ) + self.returned + socket ::ₘ self.closed = _
              rw [listed, to_close, ← Multiset.cons_coe, Multiset.add_cons, Multiset.cons_add,
                Multiset.cons_add]
            · rintro _ ⟨⟩ pass reading
              rw [show call.phase = .readReady pass from reading] at waiting
              cases waiting

/-- What is kept while the sockets are removed one by one. -/
theorem Sound.drain (config : AcceptorConfig σ δ) (count : Nat) {acceptor : Acceptor σ δ}
    (corresponds : acceptor.set.set.Corresponds config.getFd acceptor.set.ledger)
    (balanced : acceptor.set.ledger.Balanced) (count_eq : acceptor.set.ledger.count = count) :
    let next := Acceptor.drain config count acceptor
    next.set.set.Corresponds config.getFd next.set.ledger ∧ next.set.ledger.Balanced ∧
      next.set.ledger.count = 0 ∧
      next.closed = acceptor.set.ledger.sockets + acceptor.closed ∧
      next.box = acceptor.box ∧ next.handed = acceptor.handed ∧
      next.returned = acceptor.returned ∧ next.index = acceptor.index := by
  induction count generalizing acceptor with
  | zero =>
      refine ⟨corresponds, balanced, count_eq, ?_, rfl, rfl, rfl, rfl⟩
      rw [Ledger.sockets, count_eq]
      exact (zero_add _).symm
  | succ count ih =>
      have within : 1 ≤ acceptor.set.ledger.count := by omega
      obtain ⟨same, present⟩ :=
        SocketSet.Corresponds.getSocket corresponds Nat.one_pos within
      obtain ⟨socket, is_socket⟩ := Option.isSome_iff_exists.mp present
      have got := same.trans is_socket
      have in_range : acceptor.set.set.InRange 1 := by
        refine ⟨Nat.one_pos, ?_, ?_⟩
        · rw [SocketSet.Corresponds.count corresponds]
          exact within
        · show (acceptor.set.set.getSocket 1).isSome = true
          rw [got]
          rfl
      have kept := Tracked.step_faithful corresponds balanced
        (show SetOperation.Pre config.getFd acceptor.set.set (.removeSocket 1) from in_range)
      have ledger_eq := Tracked.ledger_remove corresponds Nat.one_pos within
      have sockets := Ledger.sockets_remove Nat.one_pos within is_socket
      obtain ⟨corresponds', balanced', empty, closed_eq, box_eq, handed_eq, returned_eq, index_eq⟩ :=
        @ih
          { acceptor.onSet config (.removeSocket 1) with
            closed := ((acceptor.set.set.getSocket 1).elim 0 fun socket => {socket}) +
              acceptor.closed }
          kept.1 kept.2 (by
            show (acceptor.set.step config.getFd (.removeSocket 1)).ledger.count = count
            rw [ledger_eq]
            show acceptor.set.ledger.count - 1 = count
            omega)
      refine ⟨corresponds', balanced', empty, ?_, box_eq, handed_eq, returned_eq, index_eq⟩
      refine closed_eq.trans ?_
      show (acceptor.set.step config.getFd (.removeSocket 1)).ledger.sockets +
        ((acceptor.set.set.getSocket 1).elim 0 (fun socket => {socket}) + acceptor.closed) = _
      rw [ledger_eq, got, Option.elim_some, ← sockets, ← Multiset.singleton_add]
      abel

theorem Sound.shutdown (sound : self.Sound config) {call : GetCall σ}
    (calling : self.call = some call) : (self.shutdown config call).Sound config := by
  obtain ⟨corresponds, balanced, empty, closed_eq, box_eq, handed_eq, returned_eq, index_eq⟩ :=
    Sound.drain config self.set.set.count sound.corresponds sound.balanced
      (SocketSet.Corresponds.count sound.corresponds).symm
  refine ⟨corresponds, balanced, ?_, ?_, ?_, nofun, ?_, ?_, nofun⟩
  · have empty_sockets : (Acceptor.drain config self.set.set.count self).set.ledger.sockets = 0 := by
      rw [Ledger.sockets, empty]
      rfl
    show Acceptor.boxed (Acceptor.drain config self.set.set.count self) +
      (Acceptor.drain config self.set.set.count self).set.ledger.sockets + 0 +
      (Acceptor.drain config self.set.set.count self).returned +
      ((Acceptor.drain config self.set.set.count self).closed + (call.toClose : Multiset σ)) =
      (Acceptor.drain config self.set.set.count self).handed
    rw [empty_sockets, closed_eq, handed_eq, returned_eq, boxed, box_eq, ← boxed,
      ← sound.conserved, toClose, calling, Option.elim_some]
    abel
  · show (Acceptor.drain config self.set.set.count self).handed.Nodup
    rw [handed_eq]
    exact sound.once
  · show ∀ entry ∈ (Acceptor.drain config self.set.set.count self).box, _
    rw [box_eq]
    exact sound.described
  · show 2 ≤ (Acceptor.drain config self.set.set.count self).index
    rw [index_eq]
    exact sound.index
  · intro positive
    exact absurd empty (Nat.ne_of_gt positive)

/-- `Add_Sockets` ends. -/
theorem Sound.endAdding (sound : self.Sound config) {call : GetCall σ}
    (calling : self.call = some call) :
    Sound config { self.goesOn { call with phase := .begin } with index := 2 } := by
  have went : (self.goesOn { call with phase := .begin }).Sound config :=
    sound.goesOn calling rfl nofun
  apply went.moveIndex le_rfl
  · intro _
    show 2 ≤ self.set.ledger.count + 2
    omega
  · rintro _ ⟨⟩ pass reading
    cases reading

theorem Sound.addSockets (sound : self.Sound config) {call : GetCall σ}
    (calling : self.call = some call) (received : Option Nat) :
    (self.addSockets config call received).Sound config := by
  rw [Acceptor.addSockets.eq_def]
  cases self.set.set.status 1 with
  | error exn => exact sound.raised calling
  | ok events =>
      dsimp only
      by_cases failed : events.error = true
      · rw [if_pos failed]
        exact sound.shutdown calling
      rw [if_neg failed]
      by_cases ready : events.input = true
      · rw [if_pos ready]
        cases received with
        | none => exact sound.shutdown calling
        | some bytes =>
            have went : (self.goesOn { call with phase := .adding bytes }).Sound config :=
              sound.goesOn calling rfl nofun
            exact ⟨went.corresponds, went.balanced, went.conserved, went.once, went.described,
              went.running, went.index, went.pointers, by
                rintro _ ⟨⟩ pass reading
                cases reading⟩
      · rw [if_neg ready]
        exact sound.endAdding calling

theorem Sound.takeBack (sound : self.Sound config) {call : GetCall σ}
    (calling : self.call = some call) (bytes : Nat) (clock : Int) :
    (self.takeBack config call bytes clock).Sound config := by
  have running := sound.running (by rw [calling]; rfl)
  have pointers := sound.pointers running
  rw [Acceptor.takeBack.eq_def]
  split
  next bytes socket data box boxes =>
      have described := sound.described (socket, data) (by rw [boxes]; exact List.mem_cons_self)
      refine sound.putIn running described false { time := clock, data, first := false }
        ?_ ?_ ?_ ?_ ?_ ?_ ?_ ?_
      · rfl
      · exact sound.index
      · exact pointers.1.trans (Nat.le_succ _)
      · rfl
      · intro entry among
        rw [boxes]
        exact List.mem_cons_of_mem _ among
      · show socket ::ₘ (((box.map Prod.fst : List σ) : Multiset σ) +
            (call.toClose : Multiset σ) + self.returned + self.closed) + self.handed =
          self.boxed + self.toClose + self.returned + self.closed + self.handed
        rw [boxed, boxes, List.map_cons, ← Multiset.cons_coe, toClose, calling, Option.elim_some]
        simp only [Multiset.cons_add]
      · exact sound.once
      · rintro _ ⟨⟩ pass reading
        cases reading
  next => exact sound.endAdding calling

theorem Sound.giveBack [DecidableEq σ] (sound : self.Sound config) {socket : σ}
    (described : 0 ≤ config.getFd socket) (held : socket ∈ self.returned ∨ socket ∉ self.handed)
    (data : δ) (maxSize : Nat) : (self.giveBack socket data maxSize).Sound config := by
  rw [Acceptor.giveBack]
  split_ifs with room given
  · refine ⟨sound.corresponds, sound.balanced, ?_, sound.once, ?_, sound.running, sound.index,
      sound.pointers, fun call calling pass reading =>
        (sound.found call calling pass reading).of_eq rfl rfl rfl⟩
    · show (((self.box ++ [(socket, data)]).map Prod.fst : List σ) : Multiset σ) +
        self.set.ledger.sockets + self.toClose + self.returned.erase socket + self.closed =
        self.handed
      rw [← sound.conserved, List.map_append, List.map_singleton, ← Multiset.coe_add,
        Multiset.coe_singleton, boxed]
      conv_rhs => rw [← Multiset.cons_erase given, ← Multiset.singleton_add]
      abel
    · intro entry among
      rcases List.mem_append.mp among with before | now
      · exact sound.described entry before
      · rw [List.mem_singleton.mp now]
        exact described
  · have unknown := held.resolve_left given
    refine ⟨sound.corresponds, sound.balanced, ?_, Multiset.nodup_cons.mpr ⟨unknown, sound.once⟩,
      ?_, sound.running, sound.index, sound.pointers, fun call calling pass reading =>
        (sound.found call calling pass reading).of_eq rfl rfl rfl⟩
    · show (((self.box ++ [(socket, data)]).map Prod.fst : List σ) : Multiset σ) +
        self.set.ledger.sockets + self.toClose + self.returned.erase socket + self.closed =
        socket ::ₘ self.handed
      rw [← sound.conserved, List.map_append, List.map_singleton, ← Multiset.coe_add,
        Multiset.coe_singleton, boxed, Multiset.erase_of_notMem given, ← Multiset.singleton_add]
      abel
    · intro entry among
      rcases List.mem_append.mp among with before | now
      · exact sound.described entry before
      · rw [List.mem_singleton.mp now]
        exact described
  · exact sound

end Acceptor

/-! ## Runs -/

namespace Acceptor

variable {config : AcceptorConfig σ δ}

/-- Every event keeps the invariant. -/
theorem Sound.step [DecidableEq σ] {self : Acceptor σ δ} (sound : self.Sound config) {event : AcceptorEvent σ δ}
    (possible : self.Possible config event) : (self.step config event).Sound config := by
  cases event with
  | giveBack socket data limited => exact sound.giveBack possible.1 possible.2 data _
  | get hasOnError =>
      have idle : self.call = none := possible
      rw [Acceptor.step.eq_def, idle]
      dsimp only
      split_ifs with shut
      · exact sound
      · have positive : 0 < self.set.ledger.count := by
          rw [← SocketSet.Corresponds.count sound.corresponds]
          exact Nat.pos_of_ne_zero shut
        refine ⟨sound.corresponds, sound.balanced, ?_, sound.once, sound.described,
          fun _ => positive, sound.index, sound.pointers, ?_⟩
        · have conserved := sound.conserved
          rw [toClose, idle] at conserved
          exact conserved
        · rintro _ ⟨⟩ pass reading
          cases reading
  | beginPass =>
      obtain ⟨call, calling, _⟩ := possible
      rw [Option.mem_def] at calling
      rw [Acceptor.step.eq_def, calling]
      exact sound.beginPass calling
  | examine clock accepted =>
      obtain ⟨⟨call, calling, pass, reading⟩, scanning, fresh⟩ := possible
      rw [Option.mem_def] at calling
      rw [Acceptor.step.eq_def, calling]
      dsimp only
      rw [reading]
      exact sound.examine calling reading scanning clock fresh
  | makeRoom =>
      obtain ⟨⟨call, calling, pass, reading⟩, _⟩ := possible
      rw [Option.mem_def] at calling
      rw [Acceptor.step.eq_def, calling]
      dsimp only
      rw [reading]
      exact sound.makeRoom calling reading
  | wait polled =>
      obtain ⟨call, calling, waiting⟩ := possible
      rw [Option.mem_def] at calling
      rw [Acceptor.step.eq_def, calling]
      exact sound.wait calling waiting polled
  | addSockets received =>
      obtain ⟨⟨call, calling, _⟩, _⟩ := possible
      rw [Option.mem_def] at calling
      rw [Acceptor.step.eq_def, calling]
      exact sound.addSockets calling received
  | takeBack clock =>
      obtain ⟨call, calling, bytes, adding, _⟩ := possible
      rw [Option.mem_def] at calling
      rw [Acceptor.step.eq_def, calling]
      dsimp only
      rw [adding]
      exact sound.takeBack calling bytes clock

/-- The invariant holds after `Listen`. -/
theorem sound_listen {signal server : σ} (signal_described : 0 ≤ config.getFd signal)
    (server_described : 0 ≤ config.getFd server) (different : signal ≠ server) :
    (listen config signal server : Acceptor σ δ).Sound config := by
  have start : SocketSet.Corresponds config.getFd ({} : Tracked σ (SocketData δ)).set
      ({} : Tracked σ (SocketData δ)).ledger := rfl
  have first := Tracked.step_faithful start Ledger.balanced_empty
    (show SetOperation.Pre config.getFd none (.add signal false none inputMode) from .inl trivial)
  have first_ledger : (Tracked.step config.getFd ({} : Tracked σ (SocketData δ))
      (.add signal false none inputMode)).ledger =
      Ledger.add {} { socket := some signal, mode := inputMode } :=
    Tracked.ledger_add start signal_described false none inputMode
  have second := Tracked.step_faithful first.1 first.2
    (show SetOperation.Pre config.getFd _ (.add server false none inputMode) from
      .inr server_described)
  have second_ledger := Tracked.ledger_add first.1 server_described false none inputMode
  have count_eq := SocketSet.Corresponds.count second.1
  rw [second_ledger, first_ledger] at count_eq
  refine ⟨second.1, second.2, ?_, ?_, (by rintro _ ⟨⟩), (by rintro ⟨⟩), ?_, ?_, (by rintro _ ⟨⟩)⟩
  · show 0 + (Tracked.step config.getFd _ _).ledger.sockets + 0 + 0 + 0 = {signal, server}
    rw [second_ledger, Ledger.sockets_add, first_ledger, Ledger.sockets_add]
    show 0 + (server ::ₘ signal ::ₘ 0) + 0 + 0 + 0 = signal ::ₘ server ::ₘ 0
    rw [Multiset.cons_swap, zero_add, add_zero, add_zero, add_zero]
  · show (signal ::ₘ server ::ₘ 0).Nodup
    rw [Multiset.nodup_cons]
    exact ⟨by simpa using different, Multiset.nodup_singleton server⟩
  · show 2 ≤ SocketSet.count _ + 1
    rw [count_eq]
    exact Nat.le_succ 2
  · intro _
    show SocketSet.count _ + 1 ≤ (Tracked.step config.getFd _ _).ledger.count + 2 ∧
      SocketSet.count _ ≤ (Tracked.step config.getFd _ _).ledger.count
    rw [count_eq, second_ledger, first_ledger]
    exact ⟨Nat.le_succ 3, le_rfl⟩

/-- The sockets of an acceptor are accounted for: each socket that was handed to it is in one place,
and once; the index and the last position stay in the set, but for two positions above it, until it
is shut down; the socket that is closed to make room is the one, of those that the pass has examined,
that is the closest to its timeout. -/
structure Accounted (config : AcceptorConfig σ δ) (acceptor : Acceptor σ δ) : Prop where
  places : acceptor.boxed + acceptor.set.set.sockets + acceptor.toClose + acceptor.returned +
    acceptor.closed = acceptor.handed
  once : acceptor.handed.Nodup
  pointers : 0 < acceptor.set.set.count → 1 ≤ acceptor.index ∧
    acceptor.index ≤ acceptor.set.set.count + 2 ∧ acceptor.last ≤ acceptor.set.set.count
  room : ∀ call ∈ acceptor.call, ∀ pass, call.phase = .readReady pass →
    ∀ socket ∈ acceptor.oldest config pass, ∃ diff, (socket, diff) ∈ pass.examined ∧
      ∀ entry ∈ pass.examined, diff ≤ entry.2

theorem Sound.accounted {self : Acceptor σ δ} (sound : self.Sound config) :
    self.Accounted config := by
  have count_eq := SocketSet.Corresponds.count sound.corresponds
  refine ⟨?_, sound.once, ?_, ?_⟩
  · rw [SocketSet.Corresponds.sockets sound.corresponds]
    exact sound.conserved
  · intro positive
    rw [count_eq] at positive ⊢
    exact ⟨Nat.le_of_succ_le sound.index, sound.pointers positive⟩
  · intro call calling pass reading socket chosen
    have running := sound.running (by rw [Option.mem_def.mp calling]; rfl)
    have last_le := (sound.pointers running).2
    have found := sound.found call calling pass reading
    rw [Option.mem_def, oldest] at chosen
    split_ifs at chosen with some_oldest
    obtain ⟨passed, low, high, other, occupant, examined⟩ := found.oldest some_oldest.1
    obtain ⟨_, got, is_got, is_occupant⟩ := sound.present (show 0 < pass.oldestIdx by omega)
      (show pass.oldestIdx ≤ self.set.ledger.count by omega)
    rw [chosen] at is_got
    cases is_got
    rw [is_occupant] at occupant
    cases occupant
    exact ⟨pass.waitTimeout, examined, found.least⟩

/-- After every run the sockets of an acceptor are accounted for. -/
theorem sockets_accounted_of_run [DecidableEq σ] {signal server : σ}
    (signal_described : 0 ≤ config.getFd signal) (server_described : 0 ≤ config.getFd server)
    (different : signal ≠ server) {events : List (AcceptorEvent σ δ)} {acceptor : Acceptor σ δ}
    (run : Run (Steps config) (listen config signal server) events acceptor) :
    acceptor.Accounted config := by
  apply Sound.accounted
  refine run.invariant (Sound config)
    (sound_listen signal_described server_described different) ?_
  intro before after event sound stepped
  obtain ⟨possible, rfl⟩ := stepped
  exact sound.step possible

/-- Sockets are numbers, and number one listens. -/
def exampleConfig : AcceptorConfig Nat Unit where
  getFd := fun socket => socket
  isListening := fun socket => socket == 1
  noData := ()
  timeout := 100
  firstTimeout := 100
  forceTimeout := 10
  forceFirstTimeout := 10
  forceLength := 100
  closeLength := 3
  backQueueSize := 5

/-- There is something to read at some positions. -/
def readyAt (positions : List Nat) : Option (Nat → EventsType) :=
  some fun index => if index ∈ positions then {.pollin} else ∅

/-- Two sockets are accepted, and the first one is closed to make room. -/
private def crowded : List (AcceptorEvent Nat Unit) :=
  [.get true, .beginPass, .makeRoom, .wait (readyAt [2]), .addSockets none,
    .beginPass, .examine 0 (some 10), .makeRoom, .wait (readyAt [2]), .addSockets none,
    .beginPass, .examine 5 (some 11), .examine 5 none, .makeRoom, .wait (readyAt []),
    .addSockets none,
    .beginPass, .examine 9 none, .examine 9 none, .examine 9 none, .makeRoom]

private def afterCrowded : Acceptor Nat Unit :=
  crowded.foldl (step exampleConfig) (listen exampleConfig 0 1)

private theorem run_crowded :
    Run (Steps exampleConfig) (listen exampleConfig 0 1) crowded afterCrowded :=
  run_of_allPossible (by decide +kernel)

theorem sockets_accounted_crowded : afterCrowded.Accounted exampleConfig :=
  sockets_accounted_of_run (by decide) (by decide) (by decide) run_crowded

/-- The index is two positions above the last socket. -/
theorem index_above :
    ∃ events acceptor, Run (Steps exampleConfig) (listen exampleConfig 0 1) events acceptor ∧
      acceptor.set.set.count = 3 ∧ acceptor.index = 5 :=
  ⟨crowded, afterCrowded, run_crowded, by decide +kernel, by decide +kernel⟩

end Acceptor

end Net
end AdaWebServer

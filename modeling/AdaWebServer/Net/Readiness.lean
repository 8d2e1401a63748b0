import AdaWebServer.Net.Conservation

/-!
# Whose events are reported

`Add` and `Replace` do not clear the events of the entry that they write.  What is reported for a
position is what the last wait reported for its socket as long as no entry with events is written.
-/

namespace AdaWebServer
namespace Net

open Execution Slots

/-! ## Poll sets -/

/-- A poll set, and what the last wait has reported for the socket at each position. -/
structure Monitored where
  poll : PollSet
  reported : Nat → EventsType := fun _ => ∅

/-- The operations on a poll set. -/
inductive PollOperation where
  /-- `Add`. -/
  | add (fd : Int) (event : WaitEventSet)
  /-- The copy that `Net.Add` makes of a full set. -/
  | grow
  /-- `Remove`. -/
  | remove (index : Nat)
  /-- `Replace`. -/
  | replace (index : Nat) (fd : Int)
  /-- `Set_Mode`. -/
  | setMode (index : Nat) (mode : WaitEventSet)
  /-- `Wait`. -/
  | wait (polled : Nat → EventsType)

namespace Monitored

/-- The set after an operation that may raise, and what has been reported. -/
def after (self : Monitored) (reported : Nat → EventsType) :
    Except Http2.Exn PollSet → Monitored
  | .ok poll => { poll, reported }
  | .error _ => self

/-- One operation.  Nothing has been reported for a socket that is added, or that replaces one with
another descriptor. -/
def step (self : Monitored) : PollOperation → Monitored
  | .add fd event =>
      self.after (Function.update self.reported (self.poll.length + 1) ∅) (self.poll.add fd event)
  | .grow => { self with poll := self.poll.grow }
  | .remove index =>
      self.after (moveTo self.reported index self.poll.length) (self.poll.remove index)
  | .replace index fd =>
      self.after
        (if fd = (self.poll.fds index).fd then self.reported
          else Function.update self.reported index ∅)
        (self.poll.replace index fd)
  | .setMode index mode => self.after self.reported (self.poll.setMode index mode)
  | .wait polled => { poll := (self.poll.wait polled).1, reported := polled }

/-- The entry that is written has no events, or is that of the same descriptor. -/
def Clean (self : Monitored) : PollOperation → Prop
  | .add _ _ => (self.poll.fds (self.poll.length + 1)).revents = ∅
  | .replace index fd =>
      fd = (self.poll.fds index).fd ∨ (self.poll.fds index).revents = ∅
  | .grow | .remove _ | .setMode _ _ | .wait _ => True

instance (self : Monitored) (operation : PollOperation) : Decidable (self.Clean operation) := by
  cases operation <;> unfold Clean <;> infer_instance

/-- The events at each position are those that the last wait has reported for its socket. -/
def Genuine (self : Monitored) : Prop :=
  ∀ position, 0 < position → position ≤ self.poll.length →
    (self.poll.fds position).revents = self.reported position

variable {self : Monitored}

theorem Genuine.add (genuine : self.Genuine) {fd : Int} {event : WaitEventSet}
    (clean : (self.poll.fds (self.poll.length + 1)).revents = ∅) :
    (self.step (.add fd event)).Genuine := by
  rw [step]
  cases added : self.poll.add fd event with
  | error exn => exact genuine
  | ok poll =>
      obtain ⟨length_eq, fds_eq⟩ := PollSet.add_ok added
      intro position positive within
      change position ≤ poll.length at within
      show (poll.fds position).revents = Function.update self.reported _ ∅ position
      rw [fds_eq, Function.update_apply, Function.update_apply]
      split_ifs with last
      · rw [Pollfd.setMode_revents]
        exact clean
      · exact genuine position positive (by omega)

theorem Genuine.remove (genuine : self.Genuine) (index : Nat) :
    (self.step (.remove index)).Genuine := by
  rw [step]
  cases removed : self.poll.remove index with
  | error exn => exact genuine
  | ok poll =>
      obtain ⟨in_range, length_eq, _⟩ := PollSet.remove_ok removed
      intro position positive within
      change position ≤ poll.length at within
      show (poll.fds position).revents = moveTo self.reported index self.poll.length position
      rw [PollSet.remove_fds removed within, moveTo, moveTo, Function.update_apply,
        Function.update_apply]
      split_ifs
      · exact genuine _ (by omega) le_rfl
      · exact genuine position positive (by omega)

theorem Genuine.replace (genuine : self.Genuine) {index : Nat} {fd : Int}
    (clean : fd = (self.poll.fds index).fd ∨ (self.poll.fds index).revents = ∅) :
    (self.step (.replace index fd)).Genuine := by
  rw [step, PollSet.replace]
  by_cases in_range : self.poll.InRange index
  · rw [if_pos in_range]
    intro position positive within
    show (Function.update self.poll.fds index _ position).revents = (ite _ _ _ : Nat → EventsType)
      position
    rw [Function.update_apply]
    have here := genuine position positive within
    split_ifs with same other
    · rw [← here, same]
    · rw [same, Function.update_self]
      exact clean.resolve_left other
    · exact here
    · rw [Function.update_of_ne same]
      exact here
  · rw [if_neg in_range]
    exact genuine

theorem Genuine.step (genuine : self.Genuine) {operation : PollOperation}
    (clean : self.Clean operation) : (self.step operation).Genuine := by
  cases operation with
  | add fd event => exact genuine.add clean
  | grow =>
      intro position positive within
      change position ≤ self.poll.grow.length at within
      rw [PollSet.grow_length] at within
      show (self.poll.grow.fds position).revents = _
      rw [PollSet.grow_fds _ positive within]
      exact genuine position positive within
  | remove index => exact genuine.remove index
  | replace index fd => exact genuine.replace clean
  | setMode index mode =>
      rw [Monitored.step, PollSet.setMode]
      by_cases in_range : self.poll.InRange index
      · rw [if_pos in_range]
        intro position positive within
        show (Function.update self.poll.fds index _ position).revents = self.reported position
        rw [Function.update_apply]
        split_ifs with same
        · rw [Pollfd.setMode_revents, ← same]
          exact genuine position positive within
        · exact genuine position positive within
      · rw [if_neg in_range]
        exact genuine
  | wait polled =>
      intro position positive within
      show (if 0 < position ∧ position ≤ self.poll.length then _ else _ : Pollfd).revents = _
      rw [if_pos ⟨positive, within⟩]
      rfl

/-- The steps of a poll set that are clean. -/
def CleanSteps : Monitored → PollOperation → Monitored → Prop := Performs Clean Monitored.step

theorem genuine_of_run {size : Nat} {operations : List PollOperation} {state : Monitored}
    (run : Run CleanSteps { poll := PollSet.ofSize size } operations state) : state.Genuine := by
  refine run.invariant Genuine (fun _ positive within => ?_) ?_
  · exact absurd within (Nat.not_le_of_lt positive)
  · rintro before after operation genuine ⟨clean, rfl⟩
    exact genuine.step clean

end Monitored

/-! ## Sets of sockets -/

variable {σ δ : Type}

/-- The poll set, before the first socket is added the one that it will be added to. -/
def SocketSet.poll : SocketSet σ δ → PollSet
  | none => PollSet.ofSize 4
  | some contents => contents.poll

/-- The entry that a socket is added to has no events. -/
def SocketSet.ClearAbove (set : SocketSet σ δ) : Prop :=
  (set.poll.grow.fds (set.poll.length + 1)).revents = ∅

instance (set : SocketSet σ δ) : Decidable set.ClearAbove := inferInstanceAs (Decidable (_ = _))

variable {getFd : σ → Int}

/-- The entry that is written has no events, or is that of the same descriptor. -/
def SetOperation.Clean (getFd : σ → Int) (set : SocketSet σ δ) : SetOperation σ δ → Prop
  | .add _ _ _ _ => set.ClearAbove
  | .updateSocket index process =>
      ∀ socket ∈ set.getSocket index,
        getFd (process (socket, set.getData index)).1 = getFd socket ∨
          (set.poll.fds index).revents = ∅
  | .removeSocket _ | .setData _ _ | .setMode _ _ | .reset | .wait _ => True

namespace Tracked

/-- The poll set of a set, and what its ledger says has been reported. -/
def monitored (self : Tracked σ δ) : Monitored where
  poll := self.set.poll
  reported := fun position => (self.ledger.occupant position).reported

/-- The events at each position are those that the last wait has reported for its socket. -/
def Genuine (self : Tracked σ δ) : Prop := self.monitored.Genuine

variable {self : Tracked σ δ}

theorem poll_length (corresponds : self.set.Corresponds getFd self.ledger) :
    self.set.poll.length = self.ledger.count := by
  obtain ⟨_ | contents, ledger⟩ := self
  · exact Eq.symm corresponds
  · exact Contents.Corresponds.count corresponds

/-- The reported events after one occupant has been written. -/
private theorem reported_update (occupants : Nat → Occupant σ δ) (index : Nat)
    (occupant : Occupant σ δ) :
    (fun position => (Function.update occupants index occupant position).reported) =
      Function.update (fun position => (occupants position).reported) index occupant.reported :=
  Function.comp_update Occupant.reported occupants index occupant

/-- `Add` on a set is `Add` on the poll set, after it has grown. -/
theorem add_poll (getFd : σ → Int) (set : SocketSet σ δ) (socket : σ) (allocated : Bool) (data : Option δ)
    (mode : WaitEventSet) :
    match SocketSet.add getFd socket allocated data mode set with
    | .ok _ next => set.poll.grow.add (getFd socket) mode = Except.ok next.poll
    | .error _ next => next.poll = set.poll := by
  show match EStateM.bind (SocketSet.addPrivate getFd socket mode)
      (fun length => SocketSet.setRecord length allocated data) set with
    | .ok _ next => set.poll.grow.add (getFd socket) mode = Except.ok next.poll
    | .error _ next => next.poll = set.poll
  rw [EStateM.bind]
  obtain _ | contents := set
  · have same : (PollSet.ofSize 4).grow = PollSet.ofSize 4 := rfl
    rw [SocketSet.addPrivate, PollSet.toFdSet, SocketSet.poll, same]
    cases added : (PollSet.ofSize 4).add (getFd socket) mode with
    | error exn => rfl
    | ok poll => rfl
  · rw [SocketSet.addPrivate]
    cases added : contents.poll.grow.add (getFd socket) mode with
    | error exn => rfl
    | ok poll => exact added

theorem Genuine.add (genuine : self.Genuine)
    (corresponds : self.set.Corresponds getFd self.ledger) {socket : σ} {allocated : Bool}
    {data : Option δ} {mode : WaitEventSet} (clean : self.set.ClearAbove) :
    (self.step getFd (.add socket allocated data mode)).Genuine := by
  have added := add_poll getFd self.set socket allocated data mode
  have grown : (self.monitored.step .grow).Genuine :=
    Monitored.Genuine.step genuine trivial
  rw [step, SetOperation.run]
  cases done : SocketSet.add getFd socket allocated data mode self.set with
  | error exn next =>
      rw [done] at added
      show Monitored.Genuine { poll := next.poll, reported := _ }
      rw [added]
      exact genuine
  | ok result next =>
      rw [done] at added
      have one_more := @Monitored.Genuine.add _ grown (getFd socket) mode
        (show (self.set.poll.grow.fds (self.set.poll.grow.length + 1)).revents = ∅ by
          rw [PollSet.grow_length]
          exact clean)
      rw [Monitored.step, show (self.monitored.step .grow).poll = self.set.poll.grow from rfl,
        added, PollSet.grow_length, poll_length corresponds] at one_more
      show Monitored.Genuine
        { poll := next.poll, reported := fun position => (Function.update self.ledger.occupant
            (self.ledger.count + 1) _ position).reported }
      rw [reported_update]
      exact one_more

/-- Only the record, the data and the mode of an occupant change. -/
theorem Genuine.of_poll {next : Tracked σ δ} (genuine : self.Genuine)
    (length_eq : next.set.poll.length = self.set.poll.length)
    (revents_eq : ∀ position, (next.set.poll.fds position).revents =
      (self.set.poll.fds position).revents)
    (reported_eq : ∀ position, (next.ledger.occupant position).reported =
      (self.ledger.occupant position).reported) : next.Genuine := by
  intro position positive within
  change position ≤ next.set.poll.length at within
  show (next.set.poll.fds position).revents = (next.ledger.occupant position).reported
  rw [revents_eq, reported_eq]
  exact genuine position positive (length_eq ▸ within)

private theorem reported_same (occupants : Nat → Occupant σ δ) (index : Nat)
    (occupant : Occupant σ δ) (same : occupant.reported = (occupants index).reported)
    (position : Nat) : (Function.update occupants index occupant position).reported =
      (occupants position).reported := by
  rw [Function.update_apply]
  split_ifs with here
  · rw [same, here]
  · rfl

/-- `Update_Socket` replaces the descriptor. -/
theorem Genuine.updateSocket {contents : Contents σ δ} {ledger : Ledger σ δ}
    (genuine : Genuine ⟨some contents, ledger⟩) (corresponds : contents.Corresponds getFd ledger)
    {index : Nat} {process : σ × Option δ → σ × Option δ}
    (pre : SocketSet.InRange (some contents) index)
    (clean : (SetOperation.updateSocket index process).Clean getFd (some contents)) :
    (Tracked.step getFd ⟨some contents, ledger⟩ (.updateSocket index process)).Genuine := by
  obtain ⟨socket, is_socket⟩ := Option.isSome_iff_exists.mp pre.2.2
  have here := corresponds.positions index pre.1 pre.2.1
  have in_poll : contents.poll.InRange index := ⟨pre.1, pre.2.1⟩
  have within : contents.set.InRange index := ⟨pre.1, pre.2.1.trans corresponds.length_le⟩
  have got : SocketSet.getSocket (some contents) index = some socket := is_socket
  have descriptor : (contents.poll.fds index).fd = getFd socket :=
    here.fd socket (here.socket.symm.trans is_socket)
  have replaced := Monitored.Genuine.replace genuine
    (show getFd (process (socket, SocketSet.getData (some contents) index)).1 =
      (contents.poll.fds index).fd ∨ (contents.poll.fds index).revents = ∅ by
        rw [descriptor]
        exact clean socket got)
  rw [Monitored.step, PollSet.replace,
    show (monitored ⟨some contents, ledger⟩).poll = contents.poll from rfl, if_pos in_poll] at replaced
  simp only [Tracked.step, SetOperation.run, SocketSet.updateSocket, bind, EStateM.bind, get,
    getThe, MonadStateOf.get, Protected.get_returned, got, SocketSet.changeRecord, if_pos within,
    SocketSet.changePoll, PollSet.replace, if_pos in_poll, SetOperation.note]
  show Monitored.Genuine
    { poll := _, reported := fun position => (Function.update ledger.occupant index _ position).reported }
  rw [reported_update]
  refine (congrArg Monitored.Genuine ?_).mp replaced
  rw [Monitored.after, descriptor]
  congr 1
  split_ifs
  · exact (Function.update_eq_self index _).symm
  · rfl

theorem Genuine.step (genuine : self.Genuine)
    (corresponds : self.set.Corresponds getFd self.ledger) (balanced : self.ledger.Balanced)
    {operation : SetOperation σ δ} (pre : operation.Pre getFd self.set)
    (clean : operation.Clean getFd self.set) : (self.step getFd operation).Genuine := by
  have kept := Tracked.step_faithful corresponds balanced pre
  cases operation with
  | add socket allocated data mode => exact genuine.add corresponds clean
  | removeSocket index =>
      have within : index ≤ self.ledger.count := by
        rw [← SocketSet.Corresponds.count corresponds]
        exact pre.2.1
      have ledger_eq := Tracked.ledger_remove corresponds pre.1 within
      obtain ⟨_ | contents, ledger⟩ := self
      · exact absurd pre.2.1 (Nat.not_le_of_lt pre.1)
      · have less := Monitored.Genuine.remove genuine index
        obtain ⟨poll, removed, returned⟩ :=
          SocketSet.removeSocket_eq corresponds ⟨pre.1, pre.2.1⟩
        have set_eq : (Tracked.step getFd ⟨some contents, ledger⟩ (.removeSocket index)).set =
            some { contents with
              poll, set := contents.set.compact index contents.poll.length } := by
          have done : SetOperation.run getFd (.removeSocket index) (some contents) =
              .ok () (some { contents with
                poll, set := contents.set.compact index contents.poll.length }) := by
            show EStateM.bind (SocketSet.removeSocket index) _ _ = _
            rw [EStateM.bind, returned]
            rfl
          rw [Tracked.step, done]
        rw [Monitored.step, show (monitored ⟨some contents, ledger⟩).poll = contents.poll from rfl,
          removed] at less
        rw [Genuine, monitored, set_eq, ledger_eq]
        show Monitored.Genuine { poll, reported := fun position =>
          (moveTo ledger.occupant index ledger.count position).reported }
        rw [moveTo, reported_update, ← poll_length corresponds]
        exact less
  | setData index data =>
      obtain ⟨_ | contents, ledger⟩ := self
      · exact absurd pre.2.1 (Nat.not_le_of_lt pre.1)
      · have within : contents.set.InRange index :=
          ⟨pre.1, pre.2.1.trans (Contents.Corresponds.length_le corresponds)⟩
        rw [Tracked.step, SetOperation.run, SocketSet.setData, SocketSet.changeRecord,
          if_pos within]
        refine genuine.of_poll rfl (fun _ => rfl) fun position => ?_
        exact reported_same ledger.occupant index
          { ledger.occupant index with data := some data } rfl position
  | setMode index mode =>
      obtain ⟨_ | contents, ledger⟩ := self
      · exact absurd pre.2.1 (Nat.not_le_of_lt pre.1)
      · rw [Tracked.step, SetOperation.run, SocketSet.setMode, SocketSet.changePoll,
          PollSet.setMode, if_pos ⟨pre.1, pre.2.1⟩]
        refine genuine.of_poll rfl (fun position => ?_) fun position => ?_
        · show (Function.update contents.poll.fds index _ position).revents = _
          rw [Function.update_apply]
          split_ifs with same
          · rw [Pollfd.setMode_revents, same]
            rfl
          · rfl
        · exact reported_same ledger.occupant index { ledger.occupant index with mode } rfl position
  | updateSocket index process =>
      obtain ⟨_ | contents, ledger⟩ := self
      · exact absurd pre.2.1 (Nat.not_le_of_lt pre.1)
      · exact genuine.updateSocket corresponds pre clean
  | reset =>
      intro position positive within
      change position ≤ (Tracked.step getFd self .reset).set.poll.length at within
      rw [poll_length kept.1] at within
      have empty : (Tracked.step getFd self .reset).ledger.count = 0 := by
        obtain ⟨_ | contents, ledger⟩ := self
        · rfl
        · obtain ⟨next, reset_eq, _⟩ := SocketSet.resetFrom_eq _ (rfl :
            contents.poll.length = contents.poll.length)
          rw [Tracked.step, SetOperation.run, SocketSet.reset, reset_eq]
          rfl
      omega
  | wait polled =>
      obtain ⟨_ | contents, ledger⟩ := self
      · exact fun _ positive within => absurd within (Nat.not_le_of_lt positive)
      · exact Monitored.Genuine.step genuine (show Monitored.Clean _ (.wait polled) from trivial)

end Tracked

/-! ## Acceptors -/

namespace Acceptor

variable {config : AcceptorConfig σ δ}

/-- `Get` would accept a socket at the index. -/
def acceptsHere (config : AcceptorConfig σ δ) (self : Acceptor σ δ) : Bool :=
  match self.set.set.status self.index, self.set.set.getSocket self.index with
  | .ok events, some socket => config.isListening socket && !events.error && events.input
  | _, _ => false

/-- The entry that a socket is added to has no events. -/
def Clean (config : AcceptorConfig σ δ) (self : Acceptor σ δ) : AcceptorEvent σ δ → Prop
  | .examine _ (some _) => self.acceptsHere config = true → self.set.set.ClearAbove
  | .takeBack _ =>
      (∃ call ∈ self.call, ∃ bytes, call.phase = .adding bytes ∧ 0 < bytes) →
        self.set.set.ClearAbove
  | _ => True

instance (self : Acceptor σ δ) (event : AcceptorEvent σ δ) : Decidable (self.Clean config event) := by
  unfold Clean
  match event with
  | .get _ | .giveBack _ _ _ | .beginPass | .examine _ none | .examine _ (some _) | .makeRoom | .wait _
  | .addSockets _ | .takeBack _ => infer_instance

variable {self : Acceptor σ δ}

theorem Sound.genuine_takeOut (sound : self.Sound config) (genuine : self.set.Genuine) {index : Nat}
    (positive : 0 < index) (within : index ≤ self.set.ledger.count) :
    (self.set.step config.getFd (.removeSocket index)).Genuine :=
  genuine.step sound.corresponds sound.balanced (sound.present positive within).1 trivial

/-- A timeout takes the socket at the index out of the set or leaves the set as it is. -/
theorem checkTimeout_set (self : Acceptor σ δ) (call : GetCall σ) (pass : Pass σ) (socket : σ)
    (data : SocketData δ) (clock : Int) :
    (self.checkTimeout config call pass socket data clock).set = self.set ∨
      (self.checkTimeout config call pass socket data clock).set =
        self.set.step config.getFd (.removeSocket self.index) := by
  rw [checkTimeout]
  generalize (if data.first then pass.first else pass.notFirst) - (clock - data.time) = diff
  dsimp only
  by_cases expired : diff ≤ 0
  · rw [if_pos expired]
    exact .inr rfl
  · rw [if_neg expired]
    exact .inl rfl

theorem Sound.genuine_examine (sound : self.Sound config) (genuine : self.set.Genuine)
    {call : GetCall σ} {pass : Pass σ} (calling : self.call = some call)
    (scanning : self.index ≤ self.last) {clock : Int} {accepted : Option σ}
    (clean : self.Clean config (.examine clock accepted)) :
    (self.examine config call pass clock accepted).set.Genuine := by
  have running := sound.running (by rw [calling]; rfl)
  have last_le := (sound.pointers running).2
  have low := sound.index
  obtain ⟨_, socket, got, _⟩ := sound.present (show 0 < self.index by omega)
    (show self.index ≤ self.set.ledger.count by omega)
  have taken := sound.genuine_takeOut genuine (show 0 < self.index by omega)
    (show self.index ≤ self.set.ledger.count by omega)
  rw [Acceptor.examine, got]
  cases reports : self.set.set.status self.index with
  | error exn => exact genuine
  | ok events =>
      dsimp only
      by_cases listening : config.isListening socket = true
      · rw [if_pos listening, Acceptor.acceptListening.eq_def]
        by_cases failed : events.error = true
        · rw [if_pos failed]
          exact genuine
        rw [if_neg failed]
        by_cases ready : events.input = true
        · rw [if_pos ready]
          cases accepted with
          | none =>
              dsimp only
              split_ifs
              · exact genuine
              · exact genuine
          | some fresh =>
              have accepts : self.acceptsHere config = true := by
                rw [acceptsHere, reports, got]
                simp [listening, failed, ready]
              exact genuine.add sound.corresponds (clean accepts)
        · rw [if_neg ready]
          exact genuine
      · rw [if_neg listening]
        by_cases failed : events.error = true
        · rw [if_pos failed]
          exact taken
        rw [if_neg failed]
        by_cases ready : events.input = true
        · rw [if_pos ready]
          exact taken
        · rw [if_neg ready]
          rcases checkTimeout_set self call pass socket _ clock with same | less
          · rw [same]
            exact genuine
          · rw [less]
            exact taken

theorem Sound.genuine_step [DecidableEq σ] (sound : self.Sound config)
    (genuine : self.set.Genuine) {event : AcceptorEvent σ δ}
    (possible : self.Possible config event) (clean : self.Clean config event) :
    (self.step config event).set.Genuine := by
  cases event with
  | giveBack socket data limited =>
      show (self.giveBack socket data _).set.Genuine
      rw [Acceptor.giveBack]
      split_ifs <;> exact genuine
  | get hasOnError =>
      have idle : self.call = none := possible
      rw [Acceptor.step.eq_def, idle]
      dsimp only
      split_ifs <;> exact genuine
  | beginPass =>
      obtain ⟨call, calling, _⟩ := possible
      rw [Acceptor.step.eq_def, Option.mem_def.mp calling]
      exact genuine
  | examine clock accepted =>
      obtain ⟨⟨call, calling, pass, reading⟩, scanning, _⟩ := possible
      rw [Option.mem_def] at calling
      rw [Acceptor.step.eq_def, calling]
      dsimp only
      rw [reading]
      exact sound.genuine_examine genuine calling scanning clean
  | makeRoom =>
      obtain ⟨⟨call, calling, pass, reading⟩, _⟩ := possible
      rw [Option.mem_def] at calling
      have running := sound.running (by rw [calling]; rfl)
      have last_le := (sound.pointers running).2
      rw [Acceptor.step.eq_def, calling]
      dsimp only
      rw [reading]
      dsimp only
      rw [Acceptor.makeRoom]
      cases chosen : self.oldest config pass with
      | none => exact genuine
      | some socket =>
          rw [oldest] at chosen
          split_ifs at chosen with some_oldest
          have found := (sound.found call calling pass reading).oldest some_oldest.1
          exact sound.genuine_takeOut genuine (by omega) (by omega)
  | wait polled =>
      obtain ⟨call, calling, _⟩ := possible
      rw [Acceptor.step.eq_def, Option.mem_def.mp calling]
      dsimp only
      cases polled with
      | none =>
          rw [Acceptor.wait]
          split_ifs <;> exact genuine
      | some polled =>
          have waited := genuine.step sound.corresponds sound.balanced
            (show SetOperation.Pre config.getFd self.set.set (.wait polled) from trivial) trivial
          rw [Acceptor.wait]
          cases call.toClose with
          | nil => exact waited
          | cons socket rest =>
              dsimp only
              split_ifs <;> exact waited
  | addSockets received =>
      obtain ⟨⟨call, calling, _⟩, _⟩ := possible
      have shut : (self.shutdown config call).set.Genuine := by
        obtain ⟨corresponds, _, empty, _⟩ := Sound.drain config self.set.set.count
          sound.corresponds sound.balanced (SocketSet.Corresponds.count sound.corresponds).symm
        intro position positive within
        have length_eq := Tracked.poll_length corresponds
        change position ≤ (Acceptor.drain config self.set.set.count self).set.set.poll.length at within
        omega
      rw [Acceptor.step.eq_def, Option.mem_def.mp calling]
      dsimp only
      rw [Acceptor.addSockets.eq_def]
      cases self.set.set.status 1 with
      | error exn => exact genuine
      | ok events =>
          dsimp only
          by_cases failed : events.error = true
          · rw [if_pos failed]
            exact shut
          rw [if_neg failed]
          by_cases ready : events.input = true
          · rw [if_pos ready]
            cases received with
            | none => exact shut
            | some bytes => exact genuine
          · rw [if_neg ready]
            exact genuine
  | takeBack clock =>
      obtain ⟨call, calling, bytes, adding, _⟩ := possible
      rw [Option.mem_def] at calling
      rw [Acceptor.step.eq_def, calling]
      dsimp only
      rw [adding]
      dsimp only
      rw [Acceptor.takeBack.eq_def]
      split
      next bytes socket data box boxes =>
          exact genuine.add sound.corresponds
            (clean ⟨call, calling, _, adding, Nat.succ_pos _⟩)
      next => exact genuine

/-- The second entry of a new set has no events. -/
theorem clear_of_one {socket : σ} (described : 0 ≤ config.getFd socket) :
    (Tracked.step config.getFd ({} : Tracked σ (SocketData δ))
      (.add socket false none inputMode)).set.ClearAbove := by
  obtain ⟨poll, added⟩ := PollSet.add_of_room (show (PollSet.ofSize 4).length < 4 by decide)
    described inputMode
  obtain ⟨length_eq, fds_eq⟩ := PollSet.add_ok added
  have poll_eq : (Tracked.step config.getFd ({} : Tracked σ (SocketData δ))
      (.add socket false none inputMode)).set.poll = poll := by
    have returned : ∃ contents : Contents σ (SocketData δ), contents.poll = poll ∧
        SocketSet.add config.getFd socket false none inputMode none = .ok () (some contents) := by
      show ∃ contents, _ ∧ EStateM.bind (SocketSet.addPrivate config.getFd socket inputMode) _ _ = _
      rw [EStateM.bind, SocketSet.addPrivate, PollSet.toFdSet, added]
      exact ⟨_, rfl, rfl⟩
    obtain ⟨contents, rfl, returned⟩ := returned
    rw [Tracked.step, SetOperation.run, returned]
    rfl
  rw [SocketSet.ClearAbove, poll_eq]
  rcases poll.grow_fds_eq (poll.length + 1) with same | fresh
  · rw [same, fds_eq, length_eq, Function.update_of_ne (by decide)]
    rfl
  · rw [fresh]

/-- The steps of an acceptor that are clean. -/
def CleanSteps [DecidableEq σ] (config : AcceptorConfig σ δ) :
    Acceptor σ δ → AcceptorEvent σ δ → Acceptor σ δ → Prop :=
  Performs (fun self event => self.Possible config event ∧ self.Clean config event) (step config)

end Acceptor

/-! ## Runs -/

/-- The steps of a set that are clean. -/
def Tracked.CleanSteps (getFd : σ → Int) :
    Tracked σ δ → SetOperation σ δ → Tracked σ δ → Prop :=
  Performs (fun self operation => operation.Pre getFd self.set ∧ operation.Clean getFd self.set)
    (Tracked.step getFd)

theorem Tracked.genuine_of_run {operations : List (SetOperation σ δ)} {state : Tracked σ δ}
    (run : Run (Tracked.CleanSteps getFd) {} operations state) : state.Genuine := by
  refine (run.invariant (fun state => (state.set.Corresponds getFd state.ledger ∧
    state.ledger.Balanced) ∧ state.Genuine) ⟨⟨rfl, Ledger.balanced_empty⟩, ?_⟩ ?_).2
  · exact fun _ positive within => absurd within (Nat.not_le_of_lt positive)
  · rintro before after operation ⟨⟨corresponds, balanced⟩, genuine⟩ ⟨⟨pre, clean⟩, rfl⟩
    exact ⟨Tracked.step_faithful corresponds balanced pre,
      genuine.step corresponds balanced pre clean⟩

theorem Acceptor.genuine_of_run [DecidableEq σ] {config : AcceptorConfig σ δ} {signal server : σ}
    (signal_described : 0 ≤ config.getFd signal) (server_described : 0 ≤ config.getFd server)
    (different : signal ≠ server) {events : List (AcceptorEvent σ δ)} {acceptor : Acceptor σ δ}
    (run : Run (Acceptor.CleanSteps config) (Acceptor.listen config signal server) events
      acceptor) : acceptor.set.Genuine := by
  refine (run.invariant (fun acceptor => acceptor.Sound config ∧ acceptor.set.Genuine) ⟨?_, ?_⟩
    ?_).2
  · exact Acceptor.sound_listen signal_described server_described different
  · have listening : Run (Tracked.CleanSteps config.getFd) {}
        [.add signal false none inputMode, .add server false none inputMode]
        (Acceptor.listen config signal server : Acceptor σ δ).set := by
      refine .cons ⟨⟨.inl trivial, rfl⟩, rfl⟩ (.cons ⟨⟨.inr server_described, ?_⟩, rfl⟩ .nil)
      exact Acceptor.clear_of_one signal_described
    exact Tracked.genuine_of_run listening
  · rintro before after event ⟨sound, genuine⟩ ⟨⟨possible, clean⟩, rfl⟩
    exact ⟨sound.step possible, sound.genuine_step genuine possible clean⟩

/-- What is reported for a position is what the last wait has reported for the socket there. -/
def Tracked.ReportsGenuine (self : Tracked σ δ) : Prop :=
  ∀ index events, self.set.status index = .ok events →
    events = EventSet.ofRevents (self.ledger.occupant index).reported

theorem Tracked.Genuine.reports {self : Tracked σ δ} (genuine : self.Genuine) :
    self.ReportsGenuine := by
  intro index events reported
  obtain ⟨_ | contents, ledger⟩ := self
  · cases reported
  · rw [SocketSet.status, PollSet.status] at reported
    split_ifs at reported with in_range
    cases reported
    exact congrArg EventSet.ofRevents (genuine index in_range.1 in_range.2)

namespace Acceptor

private def roomyConfig : AcceptorConfig Nat Unit := { exampleConfig with closeLength := 100 }

/-- Three sockets are accepted. -/
private def threeAccepted : List (AcceptorEvent Nat Unit) :=
  [.get true, .beginPass, .makeRoom, .wait (readyAt [2]), .addSockets none,
    .beginPass, .examine 0 (some 10), .makeRoom, .wait (readyAt [2]), .addSockets none,
    .beginPass, .examine 1 (some 11), .examine 1 none, .makeRoom, .wait (readyAt [2]),
    .addSockets none,
    .beginPass, .examine 2 (some 12), .examine 2 none, .examine 2 none, .makeRoom,
    .wait (readyAt [5]), .addSockets none, .beginPass]

/-- The last socket of three is returned, and then the first one, after another one has been accepted
at the position that was left. -/
private def staleReuse : List (AcceptorEvent Nat Unit) :=
  threeAccepted ++
    [.examine 3 none, .examine 3 none, .examine 3 none, .examine 3 none,
      .get true, .beginPass, .makeRoom, .wait (readyAt [2, 3]), .addSockets none,
      .beginPass, .examine 4 (some 13), .examine 4 none,
      .get true, .beginPass]

private def after (events : List (AcceptorEvent Nat Unit)) : Acceptor Nat Unit :=
  events.foldl (step roomyConfig) (listen roomyConfig 0 1)

end Acceptor

end Net
end AdaWebServer

import AdaWebServer.WebSocket.Broadcast
import AdaWebServer.WebSocket.Consistency

/-!
# Asynchronous sends

What the sender tasks have written to an object, followed by what is in its queue, is what the
synchronous `Send` would have written at each asynchronous one, in order.  This rests on the
redirection to the memory socket, which is in force only inside a call.
-/

namespace AdaWebServer
namespace WebSocket

open Execution (Run Guarded)
open Http2 (Octets Exn)
open Protected (left)

/-- The redirections and the queues of the objects are as before, and no object has been
registered. -/
def Leaves (before after : Database) : Prop :=
  (∀ id, (before.member id).Apart (after.member id)) ∧ after.registered ⊆ before.registered

/-- The redirections and the queues of the objects are as before, and at most one object has been
registered. -/
def Joins (before : Database) (new : Nat) (after : Database) : Prop :=
  (∀ id, (before.member id).Apart (after.member id)) ∧
    after.registered ⊆ insert new before.registered

theorem Leaves.refl (database : Database) : Leaves database database :=
  ⟨fun _ => ⟨rfl, rfl⟩, Finset.Subset.refl _⟩

theorem Leaves.withstands (before : Database) : Withstands (fun _ => True) (Leaves before) where
  onMember database id change apart leaves := by
    refine ⟨fun other => ?_, leaves.2⟩
    by_cases this : other = id
    · subst this
      have ⟨messages_eq, inMem_eq⟩ := leaves.1 other
      rw [Database.onMember_self]
      exact ⟨apart.1.trans messages_eq, apart.2.trans inMem_eq⟩
    · rw [Database.onMember_ne _ _ _ this]
      exact leaves.1 other
  unregister database id _ leaves := by
    refine ⟨fun other => ?_, ?_⟩
    · rw [Database.unregister_member]
      exact leaves.1 other
    · rw [Database.unregister_registered]
      exact (Finset.erase_subset _ _).trans leaves.2

/-! ## The accounts -/

/-- The frame of a message is what `Send` of the protocol writes. -/
theorem Member.frame_written (self : Member) {object : Object} (around : Surroundings)
    (message : Octets) (isBinary : Bool) (same_side : object.isClientSide = self.isClientSide) :
    ∃ after, object.send around message isBinary = .ok () after ∧
      after.written = object.written ++ [(dataOpcode (if isBinary then .binary else .text),
        self.frame around.randomMask message isBinary)] := by
  refine ⟨_, rfl, ?_⟩
  show object.written ++ [(_, sendFrameHeader _ _ (Object.maskOf _ _) ++
    sendPayload _ (Object.maskOf _ _))] = _
  simp only [Object.maskOf, same_side]
  rfl

/-- What is written to the network for an object up to a later database. -/
def Database.writtenUntil (self after : Database) (id : Nat) : Octets :=
  (after.member id).network.drop (self.member id).network.length

/-- What the synchronous `Send` on one object writes to the network. -/
def Database.synchronous (self : Database) (id : Nat) (message : Octets) (isBinary : Bool)
    (mask : MaskingKey) : Octets :=
  self.writtenUntil
    (outcome ((Call.sendSocket id message isBinary mask none false).perform self)).2 id

/-- What the synchronous `Send` would write to an object for what is sent asynchronously.  A
message to all objects is asynchronous as well for those that a task is sending for. -/
def Registry.asks (self : Registry) (id : Nat) : Event → Octets
  | .call (.sendSocket other message isBinary mask _ true) =>
      if other = id then self.database.synchronous id message isBinary mask else []
  | .call (.sendId other message mask _ true _) =>
      if other = id ∧ id ∈ self.database.registered then
        self.database.synchronous id message false mask
      else []
  | .broadcast matching message mask _ asynchronous =>
      if id ∈ self.database.matched matching ∧
        (asynchronous = true ∨ id ∈ self.database.sending) then
        self.database.synchronous id message false (mask id)
      else []
  | _ => []

/-- What is written to an object by the tasks that send and by the asynchronous `Send` to an
identifier. -/
def Registry.flushes (config : RegistryConfig) (self : Registry) (id : Nat) : Event → Octets
  | .call (.sendId other message mask interrupted true closing) =>
      self.database.writtenUntil (self.step config
        (.call (.sendId other message mask interrupted true closing))).database id
  | .write task written =>
      self.database.writtenUntil (self.step config (.write task written)).database id
  | _ => []

/-- The registry with the accounts of each object: the octets that have been asked for and those
that have been flushed. -/
structure Ledger extends Registry where
  asked : Nat → Octets := fun _ => []
  flushed : Nat → Octets := fun _ => []

/-- The accounts are kept while something happens. -/
def Ledger.step (config : RegistryConfig) (self : Ledger) (event : Event) : Ledger where
  toRegistry := self.toRegistry.step config event
  asked id := self.asked id ++ self.asks id event
  flushed id := self.flushed id ++ self.flushes config id event

/-- The accounts after what has happened. -/
def ledger (config : RegistryConfig) (events : List Event) : Ledger :=
  events.foldl (Ledger.step config) {}

/-- A synchronous `Send` writes its frame to the network. -/
theorem Call.sendSocket_network {database : Database} {id : Nat}
    (to_network : (database.member id).inMem = false) (message : Octets) (isBinary : Bool)
    (mask : MaskingKey) :
    (Call.sendSocket id message isBinary mask none false).perform database =
      .ok () (database.onMember id fun member =>
        { member with network := member.network ++ member.frame mask message isBinary }) := by
  show Database.sendOn id _ none database = _
  rw [Database.sendOn, Member.send, to_network]
  simp only [Database.onMember, Bool.false_eq_true, if_false, Option.elim, Option.map, to_network]

theorem Database.synchronous_eq {database : Database} {id : Nat}
    (to_network : (database.member id).inMem = false) (message : Octets) (isBinary : Bool)
    (mask : MaskingKey) :
    database.synchronous id message isBinary mask =
      (database.member id).frame mask message isBinary := by
  rw [synchronous, Call.sendSocket_network to_network, outcome, writtenUntil, onMember_self,
    List.drop_left]

theorem Database.writtenUntil_same {database after : Database} {id : Nat}
    (same : (after.member id).network = (database.member id).network) :
    database.writtenUntil after id = [] := by
  rw [writtenUntil, same, List.drop_length]

/-! ## The invariant -/

/-- What has been asked for has been flushed or is still in the queue, no redirection is in force,
and the tasks that send make progress. -/
structure Agreeing (ledger : Ledger) : Prop where
  accounts : ∀ id ∈ ledger.database.registered,
    ledger.flushed id ++ (ledger.database.member id).messages.flatten = ledger.asked id
  redirected : ∀ id, (ledger.database.member id).inMem = false
  advances : ∀ task id chunkSize, ledger.senders task = .sending id chunkSize → 0 < chunkSize
  known : ∀ id ∈ ledger.database.registered, id ≤ ledger.issued
  fresh : ∀ id, ledger.issued < id → ledger.asked id = [] ∧ ledger.flushed id = [] ∧
    (ledger.database.member id).messages = []

variable {config : RegistryConfig} {self : Ledger}

theorem Ledger.step_asked (self : Ledger) {event : Event} {id : Nat}
    (nothing : self.asks id event = []) : (self.step config event).asked id = self.asked id := by
  show self.asked id ++ self.asks id event = self.asked id
  rw [nothing, List.append_nil]

theorem Ledger.step_flushed (self : Ledger) {event : Event} {id : Nat}
    (nothing : self.flushes config id event = []) :
    (self.step config event).flushed id = self.flushed id := by
  show self.flushed id ++ self.flushes config id event = self.flushed id
  rw [nothing, List.append_nil]

/-- Nothing has been asked for or flushed. -/
theorem Agreeing.of_leaves (agreeing : Agreeing self) {event : Event}
    (leaves : Leaves self.database (self.step config event).database)
    (issued_eq : (self.step config event).issued = self.issued)
    (nothing_asked : ∀ id, self.asks id event = [])
    (nothing_flushed : ∀ id, self.flushes config id event = [])
    (advances : ∀ task id chunkSize,
      (self.step config event).senders task = .sending id chunkSize → 0 < chunkSize) :
    Agreeing (self.step config event) where
  accounts id registered := by
    rw [self.step_asked (nothing_asked id), self.step_flushed (nothing_flushed id), (leaves.1 id).1]
    exact agreeing.accounts id (leaves.2 registered)
  redirected id := (leaves.1 id).2.trans (agreeing.redirected id)
  advances := advances
  known id registered := by
    rw [issued_eq]
    exact agreeing.known id (leaves.2 registered)
  fresh id above := by
    rw [issued_eq] at above
    rw [self.step_asked (nothing_asked id), self.step_flushed (nothing_flushed id), (leaves.1 id).1]
    exact agreeing.fresh id above

theorem Registry.created_self (self : Registry) (isClientSide : Bool) (fd : Int) :
    (self.created isClientSide fd).database.member (self.issued + 1) = { isClientSide, fd } :=
  Function.update_self _ _ _

theorem Registry.created_ne (self : Registry) (isClientSide : Bool) (fd : Int) {id : Nat}
    (different : id ≠ self.issued + 1) :
    (self.created isClientSide fd).database.member id = self.database.member id :=
  Function.update_of_ne different _ _

theorem Agreeing.new (agreeing : Agreeing self) : self.issued + 1 ∉ self.database.registered :=
  fun registered => absurd (agreeing.known _ registered) (Nat.not_succ_le_self _)

theorem Agreeing.created_redirected (agreeing : Agreeing self) (isClientSide : Bool) (fd : Int)
    (id : Nat) : ((self.created isClientSide fd).database.member id).inMem = false := by
  by_cases this : id = self.issued + 1
  · rw [this, self.created_self isClientSide fd]
  · rw [self.created_ne isClientSide fd this]
    exact agreeing.redirected id

theorem Agreeing.created (agreeing : Agreeing self) (isClientSide : Bool) (fd : Int) :
    Agreeing (self.step config (.create isClientSide fd)) where
  accounts id registered := by
    have different : id ≠ self.issued + 1 := by
      rintro rfl
      exact agreeing.new registered
    rw [self.step_asked rfl, self.step_flushed rfl]
    show self.flushed id ++ ((self.created isClientSide fd).database.member id).messages.flatten = _
    rw [self.created_ne isClientSide fd different]
    exact agreeing.accounts id registered
  redirected := agreeing.created_redirected isClientSide fd
  advances := agreeing.advances
  known id registered := (agreeing.known id registered).trans (Nat.le_succ _)
  fresh id above := by
    rw [self.step_asked rfl, self.step_flushed rfl]
    show _ ∧ _ ∧ ((self.created isClientSide fd).database.member id).messages = []
    rw [self.created_ne isClientSide fd (Nat.ne_of_gt above)]
    exact agreeing.fresh id ((Nat.lt_succ_self _).trans above)

/-- `Register` may close an object and inserts the new one. -/
theorem Agreeing.registered (agreeing : Agreeing self) (isClientSide : Bool) (fd : Int)
    (timedOut : Nat → Bool) (closing : Octets) (raises : Bool) :
    Agreeing (self.step config (.register isClientSide fd timedOut closing raises)) := by
  have after : Joins (self.created isClientSide fd).database (self.issued + 1)
      (self.step config (.register isClientSide fd timedOut closing raises)).database := by
    show Joins _ _ (outcome _).2
    rw [outcome_snd]
    refine (Leaves.withstands (self.created isClientSide fd).database).register
      (fun _ => Leaves.refl _) ?_ ?_ ?_ ?_ closing raises
    · exact fun victim _ _ =>
        (Leaves.withstands _).unregister _ victim trivial (Leaves.refl _)
    · exact fun database leaves => ⟨leaves.1, Finset.insert_subset_insert _ leaves.2⟩
    · exact fun database leaves => ⟨leaves.1, leaves.2.trans (Finset.subset_insert _ _)⟩
    · exact ⟨fun _ => ⟨rfl, rfl⟩, Finset.subset_insert _ _⟩
  constructor
  case accounts =>
    intro id registered
    rw [self.step_asked rfl, self.step_flushed rfl, (after.1 id).1]
    obtain rfl | earlier := Finset.mem_insert.1 (after.2 registered)
    · have fresh := agreeing.fresh (self.issued + 1) (Nat.lt_succ_self _)
      rw [fresh.1, fresh.2.1, self.created_self isClientSide fd]
      rfl
    · have different : id ≠ self.issued + 1 := by
        rintro rfl
        exact agreeing.new earlier
      rw [self.created_ne isClientSide fd different]
      exact agreeing.accounts id earlier
  case redirected =>
    exact fun id => (after.1 id).2.trans (agreeing.created_redirected isClientSide fd id)
  case advances => exact agreeing.advances
  case known =>
    intro id registered
    show id ≤ self.issued + 1
    obtain rfl | earlier := Finset.mem_insert.1 (after.2 registered)
    · exact le_rfl
    · exact (agreeing.known id earlier).trans (Nat.le_succ _)
  case fresh =>
    intro id above
    rw [self.step_asked rfl, self.step_flushed rfl, (after.1 id).1,
      self.created_ne isClientSide fd (Nat.ne_of_gt above)]
    exact agreeing.fresh id ((Nat.lt_succ_self _).trans above)

theorem Leaves.watch {before database : Database} (leaves : Leaves before database) (id : Nat) :
    Leaves before (database.watch id) := by
  rw [Database.watch]
  split_ifs
  · exact leaves
  · exact leaves

theorem Leaves.remove {before database : Database} (leaves : Leaves before database) (id : Nat) :
    Leaves before (database.remove id) := by
  rw [Leaves, Database.remove_member, Database.remove_registered]
  exact leaves

/-- A call that is no asynchronous `Send` to one object. -/
theorem Leaves.call {registry : Registry} {call : Call}
    (not_queued : ∀ id message isBinary mask interrupted,
      call ≠ .sendSocket id message isBinary mask interrupted true) :
    Leaves registry.database (left (call.perform registry.database)) :=
  (Leaves.withstands registry.database).call (fun _ _ => trivial)
    (fun _ id leaves => leaves.watch id) (fun _ id leaves => leaves.remove id)
    (fun _ leaves => leaves)
    (fun id message isBinary mask interrupted is_send =>
      absurd is_send (not_queued id message isBinary mask interrupted))
    (Leaves.refl _)

/-- What is sent to the object with an identifier is written to the network, and an exception
unregisters the object. -/
theorem Call.sendId_network {database : Database} {id : Nat}
    (to_network : (database.member id).inMem = false) (registered : id ∈ database.registered)
    (message : Octets) (mask : MaskingKey) (interrupted : Option Nat) (asynchronous : Bool)
    (closing : Octets) :
    let frame := (database.member id).frame mask message false
    let sent := database.onMember id fun member =>
      { member with network := member.network ++ interrupted.elim frame frame.take }
    left ((Call.sendId id message mask interrupted asynchronous closing).perform database) =
      interrupted.elim sent fun _ => sent.abandon id closing := by
  show left ((ite (id ∈ database.registered) _ _ : Protected Unit) database) = _
  rw [if_pos registered]
  show left (EStateM.tryCatch (Database.sendOn id _ interrupted)
    (fun _ => modify (·.abandon id closing)) database) = _
  rw [EStateM.tryCatch, Database.sendOn, Member.send, to_network]
  cases interrupted with
  | none =>
      simp only [Bool.false_eq_true, if_false, Option.elim, Option.map, Database.onMember,
        to_network]
      rfl
  | some count =>
      simp only [Bool.false_eq_true, if_false, Option.elim, Option.map, Database.onMember,
        to_network]
      rfl

/-- What is sent to the object with an identifier is flushed at once. -/
theorem Agreeing.sendId (agreeing : Agreeing self) (id : Nat) (message : Octets)
    (mask : MaskingKey) (interrupted : Option Nat) (closing : Octets)
    (nothing_queued : (self.database.member id).messages = []) :
    Agreeing (self.step config (.call (.sendId id message mask interrupted true closing))) := by
  have database_eq : (self.step config
      (.call (.sendId id message mask interrupted true closing))).database =
        left ((Call.sendId id message mask interrupted true closing).perform self.database) :=
    outcome_snd _
  have leaves : Leaves self.database (self.step config
      (.call (.sendId id message mask interrupted true closing))).database := by
    rw [database_eq]
    exact Leaves.call nofun
  by_cases registered : id ∈ self.database.registered
  · have to_network := agreeing.redirected id
    have performed := Call.sendId_network to_network registered message mask
      interrupted true closing
    rw [← database_eq] at performed
    have others : ∀ other, other ≠ id →
        self.asks other (.call (.sendId id message mask interrupted true closing)) = [] ∧
        self.flushes config other (.call (.sendId id message mask interrupted true closing)) =
          [] := by
      intro other different
      refine ⟨if_neg fun both => different both.1.symm, ?_⟩
      refine Database.writtenUntil_same ?_
      show ((self.step config (.call (.sendId id message mask interrupted true
        closing))).database.member other).network = _
      rw [performed]
      cases interrupted with
      | none =>
          rw [Option.elim, Option.elim, Database.onMember_ne _ _ _ different]
      | some count =>
          rw [Option.elim, Option.elim, Database.abandon_ne _ _ _ different,
            Database.onMember_ne _ _ _ different]
    constructor
    case accounts =>
      intro other other_registered
      rw [(leaves.1 other).1]
      by_cases this : other = id
      · subst this
        cases interrupted with
        | some count =>
            rw [performed] at other_registered
            exact absurd other_registered (by
              rw [Option.elim, Database.abandon_registered]
              exact Finset.notMem_erase _ _)
        | none =>
            have asked : self.asks other (.call (.sendId other message mask none true closing)) =
                (self.database.member other).frame mask message false :=
              (if_pos ⟨rfl, registered⟩).trans (Database.synchronous_eq to_network _ _ _)
            have flushed : self.flushes config other
                (.call (.sendId other message mask none true closing)) =
                  (self.database.member other).frame mask message false := by
              show self.database.writtenUntil (self.step config
                (.call (.sendId other message mask none true closing))).database other = _
              rw [performed, Option.elim, Option.elim, Database.writtenUntil,
                Database.onMember_self, List.drop_left]
            have accounts := agreeing.accounts other registered
            rw [nothing_queued, List.flatten_nil, List.append_nil] at accounts
            show (self.flushed other ++ self.flushes config other _) ++ _ =
              self.asked other ++ self.asks other _
            rw [nothing_queued, List.flatten_nil, List.append_nil, asked, flushed, accounts]
      · rw [self.step_asked (others other this).1, self.step_flushed (others other this).2]
        exact agreeing.accounts other (leaves.2 other_registered)
    case redirected => exact fun other => (leaves.1 other).2.trans (agreeing.redirected other)
    case advances => exact agreeing.advances
    case known => exact fun other registered => agreeing.known other (leaves.2 registered)
    case fresh =>
      intro other above
      have different : other ≠ id := by
        rintro rfl
        exact absurd (agreeing.known other registered) (Nat.not_le_of_lt above)
      rw [self.step_asked (others other different).1, self.step_flushed (others other different).2,
        (leaves.1 other).1]
      exact agreeing.fresh other above
  · refine agreeing.of_leaves leaves rfl (fun other => if_neg fun both => ?_) (fun other => ?_)
      agreeing.advances
    · exact registered (both.1 ▸ both.2)
    · refine Database.writtenUntil_same ?_
      show ((self.step config (.call (.sendId id message mask interrupted true
        closing))).database.member other).network = _
      rw [database_eq]
      show ((left ((ite (id ∈ self.database.registered) _ _ : Protected Unit)
        self.database)).member other).network = _
      rw [if_neg registered]
      rfl

/-- A message is redirected to the memory socket of an object and from there to its queue. -/
theorem Agreeing.sendSocket (agreeing : Agreeing self) {id : Nat} (exists_it : id ≤ self.issued)
    (message : Octets) (isBinary : Bool) (mask : MaskingKey)
    (allocated : (self.database.member id).memSock = some []) :
    Agreeing (self.step config (.call (.sendSocket id message isBinary mask none true))) := by
  have others : ∀ other, other ≠ id →
      self.asks other (.call (.sendSocket id message isBinary mask none true)) = [] :=
    fun other different => if_neg different.symm
  have asked : self.asks id (.call (.sendSocket id message isBinary mask none true)) =
      (self.database.member id).frame mask message isBinary :=
    (if_pos rfl).trans (Database.synchronous_eq (agreeing.redirected id) _ _ _)
  have in_memory : ∀ member : Database,
      ((member.onMember id ({ · with inMem := true })).member id).inMem = true := by
    intro member
    rw [Database.onMember_self]
  have performed : (outcome ((Call.sendSocket id message isBinary mask none true).perform
      self.database)).2 = (self.database.onMember id ({ · with
        memSock := some ((self.database.member id).frame mask message isBinary)
        inMem := false })).enqueue id := by
    simp only [Call.perform, Database.sendSocket, if_true, Database.setInMem, bind, EStateM.bind,
      get, getThe, MonadStateOf.get, AdaWebServer.Protected.get_returned, modify, modifyGet,
        MonadStateOf.modifyGet,
      AdaWebServer.Protected.modifyGet_returned]
    rw [Database.sendOn_memory _ (in_memory _) (by rw [Database.onMember_self]; exact allocated)]
    simp only [Database.onMember_onMember]
    rfl
  have member_eq : ∀ other, ((self.database.onMember id ({ · with
      memSock := some ((self.database.member id).frame mask message isBinary)
      inMem := false })).enqueue id).member other =
        if other = id then
          { self.database.member id with
            inMem := false
            memSock := none
            messages := (self.database.member id).messages ++
              [(self.database.member id).frame mask message isBinary] }
        else self.database.member other := by
    intro other
    rw [Database.enqueue_member, Database.onMember_onMember]
    split_ifs with this
    · rw [this, Database.onMember_self]
      rfl
    · rw [Database.onMember_ne _ _ _ this]
  have database_eq : (self.step config
      (.call (.sendSocket id message isBinary mask none true))).database = _ := performed
  constructor
  case accounts =>
    intro other registered
    rw [self.step_flushed rfl, database_eq, member_eq other]
    rw [database_eq] at registered
    have accounts := agreeing.accounts other registered
    by_cases this : other = id
    · subst this
      show _ = self.asked other ++ self.asks other _
      rw [if_pos rfl, asked, List.flatten_append, ← List.append_assoc, accounts,
        List.flatten_singleton]
    · rw [if_neg this, self.step_asked (others other this)]
      exact accounts
  case redirected =>
    intro other
    rw [database_eq, member_eq other]
    split_ifs
    · rfl
    · exact agreeing.redirected other
  case advances => exact agreeing.advances
  case known =>
    intro other registered
    rw [database_eq] at registered
    exact agreeing.known other registered
  case fresh =>
    intro other above
    have different : other ≠ id := by
      rintro rfl
      exact absurd exists_it (Nat.not_le_of_lt above)
    rw [self.step_asked (others other different), self.step_flushed rfl, database_eq,
      member_eq other, if_neg different]
    exact agreeing.fresh other above

/-- A broadcast queues the frames of the objects that it does not send to itself. -/
theorem Agreeing.broadcast (agreeing : Agreeing self) {matching : Nat → Bool} (message : Octets)
    (mask : Nat → MaskingKey) {interrupted : Nat → Option Nat} (asynchronous : Bool)
    (uninterrupted : ∀ id ∈ self.database.matched matching, interrupted id = none) :
    Agreeing (self.step config (.broadcast matching message mask interrupted asynchronous)) := by
  obtain ⟨started, initialized, prepared⟩ :=
    @Database.initializeRecipients_ok (self.frames message mask) _ _ uninterrupted
      ((ascending_nodup _).filter _) asynchronous self.database
  have database_eq : (self.step config (.broadcast matching message mask interrupted
      asynchronous)).database = started := by
    show (outcome _).2 = started
    rw [Database.broadcast_eq initialized, outcome_snd]
    split_ifs
    · rfl
    · cases Delivery.start started _ <;> rfl
  have accounted : ∀ id, (self.step config (.broadcast matching message mask interrupted
      asynchronous)).asked id =
        if id ∈ self.database.matched matching ∧
            (asynchronous = true ∨ id ∈ self.database.sending) then
          self.asked id ++ self.frames message mask id
        else self.asked id := by
    intro id
    show self.asked id ++ ite _ _ _ = _
    rw [Database.synchronous_eq (agreeing.redirected id)]
    split_ifs
    · rfl
    · exact List.append_nil _
  constructor
  case accounts =>
    intro id registered
    rw [database_eq, prepared.registered_eq] at registered
    have accounts := agreeing.accounts id registered
    rw [self.step_flushed rfl, database_eq, accounted]
    by_cases among : id ∈ self.database.matched matching
    · by_cases queues : asynchronous = true ∨ id ∈ self.database.sending
      · rw [if_pos ⟨among, queues⟩, prepared.queued id among queues, ← accounts, List.append_assoc]
        exact congrArg _ (by rw [List.flatten_append, List.flatten_singleton])
      · rw [if_neg (fun both => queues both.2), prepared.chosen id among queues, accounts]
    · rw [if_neg (fun both => among both.1), prepared.others id among, accounts]
  case redirected =>
    intro id
    rw [database_eq]
    by_cases among : id ∈ self.database.matched matching
    · by_cases queues : asynchronous = true ∨ id ∈ self.database.sending
      · rw [prepared.queued id among queues]
      · rw [prepared.chosen id among queues]
    · rw [prepared.others id among]
      exact agreeing.redirected id
  case advances => exact agreeing.advances
  case known =>
    intro id registered
    rw [database_eq, prepared.registered_eq] at registered
    exact agreeing.known id registered
  case fresh =>
    intro id above
    have not_among : id ∉ self.database.matched matching := fun among =>
      absurd (agreeing.known id (mem_ascending.1 (List.mem_filter.1 among).1))
        (Nat.not_le_of_lt above)
    rw [self.step_flushed rfl, database_eq, accounted, if_neg fun both => not_among both.1,
      prepared.others id not_among]
    exact agreeing.fresh id above

/-- Nothing happens to the registry. -/
theorem Agreeing.of_unchanged (agreeing : Agreeing self) {event : Event}
    (unchanged : self.toRegistry.step config event = self.toRegistry)
    (nothing_asked : ∀ id, self.asks id event = [])
    (nothing_flushed : ∀ id, self.flushes config id event = []) :
    Agreeing (self.step config event) := by
  refine agreeing.of_leaves ?_ ?_ nothing_asked nothing_flushed ?_
  · show Leaves self.database (self.toRegistry.step config event).database
    rw [unchanged]
    exact Leaves.refl _
  · exact congrArg Registry.issued unchanged
  · show ∀ task id chunkSize, (self.toRegistry.step config event).senders task = _ → _
    rw [unchanged]
    exact agreeing.advances

theorem Agreeing.progress (agreeing : Agreeing self) (progress : Progress) :
    Agreeing (self.step config (.progress progress)) := by
  cases delivery_eq : self.delivery with
  | none =>
      refine agreeing.of_unchanged ?_ (fun _ => rfl) fun _ => rfl
      simp only [Registry.step, delivery_eq]
  | some delivery =>
      have step_eq : self.toRegistry.step config (.progress progress) =
          let next := Transmission.step ⟨self.database, delivery⟩ progress
          { self.toRegistry with
            database := next.database
            delivery := if next.delivery.finished then none else some next.delivery } := by
        simp only [Registry.step, delivery_eq]
      refine agreeing.of_leaves ?_ ?_ (fun _ => rfl) (fun _ => rfl) ?_
      · show Leaves self.database (self.toRegistry.step config _).database
        rw [step_eq]
        exact (Leaves.withstands self.database).transmission (fun _ _ => trivial) (Leaves.refl _)
      · show (self.toRegistry.step config _).issued = _
        rw [step_eq]
      · show ∀ task id chunkSize, (self.toRegistry.step config _).senders task = _ → _
        rw [step_eq]
        exact agreeing.advances

theorem Leaves.getSocket (database : Database) :
    Leaves database (left (Database.getSocket database)) := by
  rw [Database.getSocket]
  cases database.firstReady database.pending with
  | error exn => exact Leaves.refl database
  | ok first =>
      cases first with
      | none => exact Leaves.refl database
      | some first => exact Leaves.refl database

/-- The other tasks make progress, and so does the one that goes on. -/
theorem Agreeing.advances_update (agreeing : Agreeing self) {task : Nat} {sender : Sender}
    (advances : ∀ id chunkSize, sender = .sending id chunkSize → 0 < chunkSize) :
    ∀ other id chunkSize, Function.update self.senders task sender other = .sending id chunkSize →
      0 < chunkSize := by
  intro other id chunkSize sends
  by_cases this : other = task
  · rw [this, Function.update_self] at sends
    exact advances id chunkSize sends
  · rw [Function.update_of_ne this] at sends
    exact agreeing.advances other id chunkSize sends

theorem Agreeing.getSocket (agreeing : Agreeing self) (task : Nat) :
    Agreeing (self.step config (.getSocket task)) := by
  have leaves := Leaves.getSocket self.database
  refine agreeing.of_leaves ?_ ?_ (fun _ => rfl) (fun _ => rfl) ?_
  case refine_1 =>
    show Leaves self.database (self.toRegistry.step config (.getSocket task)).database
    rw [Registry.step]
    cases done : Database.getSocket self.database with
    | error exn database =>
        rw [done] at leaves
        exact leaves
    | ok taken database =>
        rw [done] at leaves
        cases taken with
        | none => exact leaves
        | some id => exact leaves
  case refine_2 =>
    show (self.toRegistry.step config (.getSocket task)).issued = self.issued
    rw [Registry.step]
    cases Database.getSocket self.database with
    | error exn database => rfl
    | ok taken database => cases taken <;> rfl
  case refine_3 =>
    show ∀ task' id chunkSize,
      (self.toRegistry.step config (.getSocket task)).senders task' = .sending id chunkSize → _
    rw [Registry.step]
    cases Database.getSocket self.database with
    | error exn database => exact agreeing.advances_update (by rintro _ _ ⟨⟩)
    | ok taken database =>
        cases taken with
        | none => exact agreeing.advances
        | some id => exact agreeing.advances_update (by rintro _ _ ⟨⟩)

/-- A task starts to send a message, and has not dropped any. -/
theorem Agreeing.begin (agreeing : Agreeing self) {task : Nat} {outputSpace : Option Nat}
    (nothing_dropped : ∀ id, self.senders task = .taken id →
      (self.database.member id).messages.length ≤ config.messageQueueSize ∧
        outputSpace ≠ some 0) :
    Agreeing (self.step config (.begin task outputSpace)) := by
  cases sender_eq : self.senders task with
  | taken id =>
      obtain ⟨all, some_space⟩ := nothing_dropped id sender_eq
      have leaves : Leaves self.database (self.database.onMember id fun member =>
          { member with
            messages :=
              member.messages.drop (member.messages.length - config.messageQueueSize) }) := by
        refine (Leaves.withstands self.database).onMember self.database id _ ⟨?_, rfl⟩
          (Leaves.refl _)
        dsimp only
        rw [Nat.sub_eq_zero_of_le all, List.drop_zero]
      refine agreeing.of_leaves ?_ ?_ (fun _ => rfl) (fun _ => rfl) ?_
      case refine_1 =>
        show Leaves self.database (self.toRegistry.step config (.begin task outputSpace)).database
        simp only [Registry.step, sender_eq]
        exact leaves
      case refine_2 =>
        show (self.toRegistry.step config (.begin task outputSpace)).issued = self.issued
        simp only [Registry.step, sender_eq]
      case refine_3 =>
        show ∀ other id chunkSize, (self.toRegistry.step config
          (.begin task outputSpace)).senders other = .sending id chunkSize → _
        simp only [Registry.step, sender_eq]
        refine agreeing.advances_update ?_
        intro other chunkSize sends
        split_ifs at sends
        cases sends
        cases outputSpace with
        | none => exact (by decide : 0 < maxStackSize)
        | some space =>
            have positive : 0 < space := Nat.pos_of_ne_zero fun zero => some_space (by rw [zero])
            exact lt_min (by decide) positive
  | _ =>
      refine agreeing.of_unchanged ?_ (fun _ => rfl) fun _ => rfl
      simp only [Registry.step, sender_eq]

/-- What is flushed to an object leaves its queue. -/
theorem Agreeing.rebalance (agreeing : Agreeing self) {next : Ledger} {id : Nat}
    (registered : next.database.registered ⊆ self.database.registered)
    (others : ∀ other, other ≠ id →
      next.database.member other = self.database.member other ∧
        next.flushed other = self.flushed other)
    (redirected : (next.database.member id).inMem = (self.database.member id).inMem)
    (balance : id ∈ next.database.registered →
      next.flushed id ++ (next.database.member id).messages.flatten =
        self.flushed id ++ (self.database.member id).messages.flatten)
    (issued_eq : next.issued = self.issued)
    (asked_eq : ∀ other, next.asked other = self.asked other)
    (advances : ∀ task id chunkSize, next.senders task = .sending id chunkSize → 0 < chunkSize)
    (something : (self.database.member id).messages ≠ []) : Agreeing next where
  accounts other other_registered := by
    have accounts := agreeing.accounts other (registered other_registered)
    rw [asked_eq]
    by_cases this : other = id
    · subst this
      rw [balance other_registered, accounts]
    · rw [(others other this).1, (others other this).2, accounts]
  redirected other := by
    by_cases this : other = id
    · subst this
      rw [redirected]
      exact agreeing.redirected other
    · rw [(others other this).1]
      exact agreeing.redirected other
  advances := advances
  known other other_registered := by
    rw [issued_eq]
    exact agreeing.known other (registered other_registered)
  fresh other above := by
    rw [issued_eq] at above
    have fresh := agreeing.fresh other above
    have different : other ≠ id := by
      rintro rfl
      exact something fresh.2.2
    rw [asked_eq, (others other different).1, (others other different).2]
    exact fresh

theorem Member.sendPart_network (self : Member) (to_network : self.inMem = false) (data : Octets) :
    self.sendPart data data.length = { self with network := self.network ++ data } := by
  rw [sendPart, to_network, if_neg Bool.false_ne_true, List.take_length]

/-- A task writes a part of a message as a whole, or fails and unregisters the object. -/
theorem Agreeing.write (agreeing : Agreeing self) {task id chunkSize : Nat} {message : Octets}
    {written : Written} (sender_eq : self.senders task = .sending id chunkSize)
    (first : self.firstMessage id = some message)
    (whole : written = .accepted (min chunkSize message.length) ∨ written = .raised) :
    Agreeing (self.step config (.write task written)) := by
  obtain ⟨messages, messages_eq⟩ : ∃ messages,
      (self.database.member id).messages = message :: messages := by
    rw [Registry.firstMessage, List.head?_eq_some_iff] at first
    exact first
  have something : (self.database.member id).messages ≠ [] := by
    rw [messages_eq]
    exact List.cons_ne_nil _ _
  have step_eq : self.toRegistry.step config (.write task written) =
      self.toRegistry.writePart task id chunkSize written := by
    simp only [Registry.step, sender_eq]
  have flushes_eq : ∀ other, self.flushes config other (.write task written) =
      self.database.writtenUntil (self.toRegistry.step config (.write task written)).database
        other :=
    fun _ => rfl
  obtain rfl | rfl := whole
  · have length_eq : min chunkSize message.length =
        (message.take (min chunkSize message.length)).length := by
      rw [List.length_take, min_assoc, min_self]
    have database_eq : (self.step config
        (.write task (.accepted (min chunkSize message.length)))).database =
          self.database.onMember id fun member =>
            { member with
              messages := message.drop (min chunkSize message.length) :: messages
              network := member.network ++ message.take (min chunkSize message.length) } := by
      show (self.toRegistry.step config _).database = _
      rw [step_eq]
      simp only [Registry.writePart, messages_eq, Database.onMember_onMember]
      have sent := Member.sendPart_network
        { self.database.member id with
          messages := message.drop (min chunkSize message.length) :: messages }
        (agreeing.redirected id) (message.take (min chunkSize message.length))
      rw [← length_eq] at sent
      simp only [Database.onMember, sent]
    refine agreeing.rebalance ?_ (fun other different => ⟨?_, self.step_flushed ?_⟩) ?_
      (fun _ => ?_) ?_ (fun _ => self.step_asked rfl) ?_ something
    case refine_1 =>
      rw [database_eq]
      exact Finset.Subset.refl _
    case refine_2 => rw [database_eq, Database.onMember_ne _ _ _ different]
    case refine_3 =>
      refine Database.writtenUntil_same ?_
      exact congrArg (fun database : Database => (database.member other).network) database_eq
        |>.trans (congrArg Member.network (Database.onMember_ne _ _ _ different))
    case refine_4 => rw [database_eq, Database.onMember_self]
    case refine_5 =>
      show (self.flushed id ++ self.database.writtenUntil (self.step config _).database id) ++
        ((self.step config _).database.member id).messages.flatten = _
      rw [database_eq, Database.writtenUntil, Database.onMember_self, messages_eq]
      dsimp only
      rw [List.drop_left, List.flatten_cons, List.flatten_cons, List.append_assoc,
        ← List.append_assoc (List.take _ _), List.take_append_drop]
    case refine_6 =>
      show (self.toRegistry.step config _).issued = _
      rw [step_eq]
      simp only [Registry.writePart, messages_eq]
    case refine_7 =>
      show ∀ other id chunkSize, (self.toRegistry.step config _).senders other = _ → _
      rw [step_eq]
      simp only [Registry.writePart, messages_eq]
      exact agreeing.advances
  · have database_eq : (self.step config (.write task .raised)).database =
        (self.database.onMember id ({ · with
          messages := message.drop (min chunkSize message.length) :: messages })).abandon
            id [] := by
      show (self.toRegistry.step config _).database = _
      rw [step_eq]
      simp only [Registry.writePart, messages_eq]
    refine agreeing.rebalance ?_ (fun other different => ⟨?_, self.step_flushed ?_⟩) ?_
      (fun registered => ?_) ?_ (fun _ => self.step_asked rfl) ?_ something
    case refine_1 =>
      rw [database_eq, Database.abandon_registered]
      exact Finset.erase_subset _ _
    case refine_2 =>
      rw [database_eq, Database.abandon_ne _ _ _ different, Database.onMember_ne _ _ _ different]
    case refine_3 =>
      refine Database.writtenUntil_same ?_
      exact congrArg (fun database : Database => (database.member other).network) database_eq
        |>.trans (congrArg Member.network ((Database.abandon_ne _ _ _ different).trans
          (Database.onMember_ne _ _ _ different)))
    case refine_4 =>
      rw [database_eq, Database.abandon, Database.onMember_self, Database.unregister_member,
        Database.onMember_self]
      rfl
    case refine_5 =>
      rw [database_eq, Database.abandon_registered] at registered
      exact absurd registered (Finset.notMem_erase _ _)
    case refine_6 =>
      show (self.toRegistry.step config _).issued = _
      rw [step_eq]
      simp only [Registry.writePart, messages_eq]
    case refine_7 =>
      show ∀ other id chunkSize, (self.toRegistry.step config _).senders other = _ → _
      rw [step_eq]
      simp only [Registry.writePart, messages_eq]
      exact agreeing.advances

/-- A task has sent a message, which is not in the queue any more. -/
theorem Agreeing.finish (agreeing : Agreeing self) {task : Nat}
    (sent : ∀ id chunkSize, self.senders task = .sending id chunkSize →
      self.firstMessage id = some []) :
    Agreeing (self.step config (.finish task)) := by
  cases sender_eq : self.senders task with
  | sending id chunkSize =>
      obtain ⟨messages, messages_eq⟩ : ∃ messages,
          (self.database.member id).messages = [] :: messages := by
        have first := sent id chunkSize sender_eq
        rw [Registry.firstMessage, List.head?_eq_some_iff] at first
        exact first
      have something : (self.database.member id).messages ≠ [] := by
        rw [messages_eq]
        exact List.cons_ne_nil _ _
      have step_eq : self.toRegistry.step config (.finish task) =
          { self.toRegistry with
            database := (self.database.onMember id fun member =>
              { member with messages := member.messages.tail }).releaseSocket id
            senders := Function.update self.senders task .waiting } := by
        simp only [Registry.step, sender_eq]
      have database_eq := congrArg Registry.database step_eq
      change (self.step config (.finish task)).database = _ at database_eq
      refine agreeing.rebalance ?_ (fun other different => ⟨?_, self.step_flushed rfl⟩) ?_
        (fun _ => ?_) ?_ (fun _ => self.step_asked rfl) ?_ something
      · rw [database_eq]
        exact Finset.Subset.refl _
      · rw [database_eq, Database.releaseSocket_member, Database.onMember_ne _ _ _ different]
      · rw [database_eq, Database.releaseSocket_member, Database.onMember_self]
      · rw [self.step_flushed rfl, database_eq, Database.releaseSocket_member,
          Database.onMember_self, messages_eq]
        rfl
      · show (self.toRegistry.step config _).issued = _
        rw [step_eq]
      · show ∀ other id chunkSize, (self.toRegistry.step config _).senders other = _ → _
        rw [step_eq]
        exact agreeing.advances_update (by rintro _ _ ⟨⟩)
  | _ =>
      refine agreeing.of_unchanged ?_ (fun _ => rfl) fun _ => rfl
      simp only [Registry.step, sender_eq]

/-! ## Whole runs -/

/-- What is excluded: to send asynchronously to one object without an empty memory socket, or with
an exception in the middle; to overtake a queue by sending asynchronously to an identifier; an
exception in the middle of a broadcast; to drop messages that are too old; to send in parts without
octets; and a socket that takes only a part of what is written to it. -/
def Registry.Faithful (config : RegistryConfig) (self : Registry) : Event → Prop
  | .call (.sendSocket id _ _ _ interrupted true) =>
      (self.database.member id).memSock = some [] ∧ interrupted = none
  | .call (.sendId id _ _ _ true _) => (self.database.member id).messages = []
  | .broadcast matching _ _ interrupted _ =>
      ∀ id ∈ self.database.matched matching, interrupted id = none
  | .begin task outputSpace =>
      match self.senders task with
      | .taken id =>
          (self.database.member id).messages.length ≤ config.messageQueueSize ∧ outputSpace ≠ some 0
      | _ => True
  | .write task (.accepted last) =>
      match self.senders task with
      | .sending id chunkSize =>
          last = min chunkSize ((self.firstMessage id).elim 0 List.length)
      | _ => True
  | _ => True

instance (config : RegistryConfig) (self : Registry) (event : Event) :
    Decidable (self.Faithful config event) := by
  unfold Registry.Faithful
  match event with
  | .begin task _ | .write task (.accepted _) =>
      dsimp only
      match self.senders task with
      | .waiting | .taken _ | .sending _ _ | .terminated => infer_instance
  | .call (.sendSocket _ _ _ _ _ true) | .call (.sendSocket _ _ _ _ _ false)
  | .call (.sendId _ _ _ _ true _) | .call (.sendId _ _ _ _ false _)
  | .call (.watch _) | .call (.remove _) | .call (.unregister _) | .call .notEmpty
  | .call (.close _ _ _) | .call (.closeId _ _) | .call (.closeMatching _ _)
  | .create _ _ | .register _ _ _ _ _ | .broadcast _ _ _ _ _ | .progress _ | .getSocket _
  | .write _ .raised | .finish _ => infer_instance

/-- A call that sends nothing asynchronously. -/
theorem Agreeing.call (agreeing : Agreeing self) {call : Call}
    (not_queued : ∀ id message isBinary mask interrupted,
      call ≠ .sendSocket id message isBinary mask interrupted true)
    (nothing_asked : ∀ id, self.asks id (.call call) = [])
    (nothing_flushed : ∀ id, self.flushes config id (.call call) = []) :
    Agreeing (self.step config (.call call)) := by
  refine agreeing.of_leaves ?_ rfl nothing_asked nothing_flushed agreeing.advances
  show Leaves self.database (outcome (call.perform self.database)).2
  rw [outcome_snd]
  exact Leaves.call not_queued

/-- Every step keeps the agreement if nothing that is excluded happens. -/
theorem Agreeing.step {event : Event} (agreeing : Agreeing self)
    (faithful : self.Faithful config event) (possible : self.Possible event) :
    Agreeing (self.step config event) := by
  cases event with
  | create isClientSide fd => exact agreeing.created isClientSide fd
  | register isClientSide fd timedOut closing raises =>
      exact agreeing.registered isClientSide fd timedOut closing raises
  | call call =>
      cases call with
      | sendSocket id message isBinary mask interrupted asynchronous =>
          cases asynchronous with
          | false => exact agreeing.call nofun (fun _ => rfl) fun _ => rfl
          | true =>
              obtain ⟨allocated, rfl⟩ := faithful
              exact agreeing.sendSocket possible.2 message isBinary mask allocated
      | sendId id message mask interrupted asynchronous closing =>
          cases asynchronous with
          | false => exact agreeing.call nofun (fun _ => rfl) fun _ => rfl
          | true => exact agreeing.sendId id message mask interrupted closing faithful
      | _ => exact agreeing.call nofun (fun _ => rfl) fun _ => rfl
  | broadcast matching message mask interrupted asynchronous =>
      exact agreeing.broadcast message mask asynchronous faithful
  | progress progress => exact agreeing.progress progress
  | getSocket task => exact agreeing.getSocket task
  | begin task outputSpace =>
      refine agreeing.begin fun id sender_eq => ?_
      simp only [Registry.Faithful, sender_eq] at faithful
      exact faithful
  | write task written =>
      cases sender_eq : self.senders task with
      | sending id chunkSize =>
          simp only [Registry.Possible, sender_eq] at possible
          cases first : self.firstMessage id with
          | none =>
              simp only [first] at possible
          | some message =>
              refine agreeing.write sender_eq first ?_
              cases written with
              | accepted last =>
                  simp only [Registry.Faithful, sender_eq, first, Option.elim] at faithful
                  exact .inl (by rw [faithful])
              | raised => exact .inr rfl
      | _ => simp only [Registry.Possible, sender_eq] at possible
  | finish task =>
      refine agreeing.finish fun id chunkSize sender_eq => ?_
      simp only [Registry.Possible, sender_eq] at possible
      exact possible.2

/-- The accounts agree after every run in which nothing that is excluded happens. -/
theorem Agreeing.of_run {config : RegistryConfig} {labels : List Event} {state : Registry}
    (run : Run (Guarded (Registry.Faithful config) (Registry.Steps config)) {} labels state) :
    (ledger config labels).toRegistry = state ∧ Agreeing (ledger config labels) := by
  induction run with
  | nil =>
      refine ⟨rfl, ?_, fun _ => rfl, ?_, ?_, fun _ _ => ⟨rfl, rfl, rfl⟩⟩
      · exact fun id registered => absurd registered (Finset.notMem_empty id)
      · exact fun _ _ _ sends => Sender.noConfusion sends
      · exact fun id registered => absurd registered (Finset.notMem_empty id)
  | snoc earlier last ih =>
      obtain ⟨faithful, possible, rfl⟩ := last
      obtain ⟨rfl, agreeing⟩ := ih
      rw [ledger, List.foldl_append]
      exact ⟨rfl, agreeing.step faithful possible⟩

/-- In every run in which nothing that is excluded happens, the octets that the tasks have written
to the network for a registered object, followed by those in its queue, are those that the
synchronous `Send` would have written at each asynchronous one, in order.  No redirection stays in
force: a synchronous `Send` writes to the network the frame that `Send` of the protocol writes.
The tasks that send write parts with octets. -/
theorem sends_agree_of_run {config : RegistryConfig} {labels : List Event} {state : Registry}
    (run : Run (Guarded (Registry.Faithful config) (Registry.Steps config)) {} labels state) :
    (∀ id ∈ state.database.registered,
      (ledger config labels).flushed id ++ (state.database.member id).messages.flatten =
        (ledger config labels).asked id) ∧
    (∀ id, (state.database.member id).inMem = false) ∧
    (∀ task id chunkSize, state.senders task = .sending id chunkSize → 0 < chunkSize) ∧
    ∀ id message isBinary (object : Object) (around : Surroundings),
      object.isClientSide = (state.database.member id).isClientSide →
        ∃ sent frame, object.send around message isBinary = .ok () sent ∧
          sent.written =
            object.written ++ [(dataOpcode (if isBinary then .binary else .text), frame)] ∧
          state.database.synchronous id message isBinary around.randomMask = frame ∧
          Call.perform (.sendSocket id message isBinary around.randomMask none false)
            state.database = .ok () (state.database.onMember id fun member =>
              { member with network := member.network ++ frame }) := by
  obtain ⟨rfl, agreeing⟩ := Agreeing.of_run run
  refine ⟨agreeing.accounts, agreeing.redirected, agreeing.advances, ?_⟩
  intro id message isBinary object around same_side
  have to_network := agreeing.redirected id
  obtain ⟨sent, sent_eq, written_eq⟩ := Member.frame_written _ around message isBinary same_side
  refine ⟨sent, _, sent_eq, written_eq, Database.synchronous_eq to_network _ _ _, ?_⟩
  rw [Call.sendSocket_network to_network]
  rfl

/-- Two messages are sent asynchronously, one of which has been flushed. -/
def twoMessages : List Event :=
  [.register false 3 (fun _ => false) [] false,
    .broadcast (fun _ => true) [72, 105] (fun _ _ => 0) (fun _ => none) true,
    .broadcast (fun _ => true) [72, 111] (fun _ _ => 0) (fun _ => none) true,
    .getSocket 0, .begin 0 (some 3), .write 0 (.accepted 3), .write 0 (.accepted 1), .finish 0]

theorem sends_agree_two_messages : ∃ state : Registry,
    (state.database.member 1).network = [129, 2, 72, 105] ∧
      (ledger twoAtMost twoMessages).flushed 1 = [129, 2, 72, 105] ∧
      (ledger twoAtMost twoMessages).asked 1 = [129, 2, 72, 105] ++ [129, 2, 72, 111] ∧
      (ledger twoAtMost twoMessages).flushed 1 ++ (state.database.member 1).messages.flatten =
        (ledger twoAtMost twoMessages).asked 1 ∧
      (state.database.member 1).inMem = false := by
  have run : Run (Guarded (Registry.Faithful twoAtMost) (Registry.Steps twoAtMost)) {} twoMessages
      (twoMessages.foldl (Registry.step twoAtMost) {}) :=
    (@Execution.run_of_allPossible _ _ _
      (fun state label => Registry.Faithful twoAtMost state label ∧ state.Possible label) _
      (Registry.step twoAtMost) twoMessages (by decide +kernel)).mono
        fun ⟨⟨faithful, possible⟩, stepped⟩ => ⟨faithful, possible, stepped⟩
  have agree := sends_agree_of_run run
  exact ⟨_, by decide +kernel, by decide +kernel, by decide +kernel,
    agree.1 1 (by decide +kernel), agree.2.1 1⟩

/-- An object is sent to asynchronously on its own. -/
def singleSend : List Event :=
  [.register false 3 (fun _ => false) [] false,
    .call (.sendSocket 1 [72, 105] false (fun _ => 0) none true)]

/-- An asynchronous `Send` to one object raises an exception before anything is queued, and later
synchronous sends do not reach the network. -/
theorem single_send_redirects : ∃ state : Registry,
    Run (Registry.Steps twoAtMost) {} singleSend state ∧ 1 ∈ state.database.registered ∧
      (ledger twoAtMost singleSend).asked 1 = [129, 2, 72, 105] ∧
      (ledger twoAtMost singleSend).flushed 1 = [] ∧ (state.database.member 1).messages = [] ∧
      (state.database.member 1).inMem = true ∧
      Call.perform (.sendSocket 1 [72, 105] false (fun _ => 0) none false) state.database =
        .error .constraintError (state.database.onMember 1 id) := by
  refine ⟨_, Execution.run_of_allPossible (by decide +kernel), by decide +kernel,
    by decide +kernel, by decide +kernel, by decide +kernel, by decide +kernel, ?_⟩
  rfl

end WebSocket
end AdaWebServer

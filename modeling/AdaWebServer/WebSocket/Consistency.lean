import AdaWebServer.Foundations.Protected
import AdaWebServer.WebSocket.Registry

/-!
# The consistency of the registry

The objects that are watched are registered and counted, and there are never too many.  The queue of
the objects with pending messages is a different matter: an object that is unregistered stays in it.
-/

namespace AdaWebServer
namespace WebSocket

open Execution (Run Guarded)
open Http2 (Octets Exn)
open Protected (Keeps left keeps_pure keeps_throw keeps_modify keeps_get_bind)

/-! ## Properties of the database -/

/-- The objects that are unregistered while a message is sent to recipients. -/
def Transmission.Unregisters (self : Transmission) : Progress → Nat → Prop
  | .poll _, _ => False
  | .timeout kept, id => id ∈ self.delivery.remaining ∧ kept id = false
  | .turn outputSpace .raised _, id =>
      self.delivery.socks (self.delivery.set.next self.delivery.sockIndex) = some id ∧
        self.chunk outputSpace ≠ 0
  | .turn _ (.accepted _) _, _ => False

namespace Member

/-- A change of an object that concerns neither its queue nor the redirection. -/
def Apart (before after : Member) : Prop :=
  after.messages = before.messages ∧ after.inMem = before.inMem

theorem sendPart_apart (member : Member) (data : Octets) (last : Nat) :
    member.Apart (member.sendPart data last) := by
  rw [sendPart]
  split_ifs
  · exact ⟨rfl, rfl⟩
  · exact ⟨rfl, rfl⟩

theorem send_apart (member : Member) (octets : Octets) (interrupted : Option Nat) :
    member.Apart (member.send octets interrupted).1 := by
  rw [send]
  split_ifs
  · cases member.memSock with
    | none => exact ⟨rfl, rfl⟩
    | some memory => exact ⟨rfl, rfl⟩
  · exact ⟨rfl, rfl⟩

end Member

private theorem sent_database (database : Database) (id chunk last : Nat) (memory : Octets)
    (beyond going : Delivery) :
    ∃ change : Member → Member, (∀ member : Member, member.Apart (change member)) ∧
      (if memory.length - last = 0 then
        (((database.onMember id ({ · with memSock := some (memory.drop chunk) })).onMember id
          (·.sendPart (memory.take chunk) last)).onMember id ({ · with memSock := none }), beyond)
      else
        ((database.onMember id ({ · with memSock := some (memory.drop chunk) })).onMember id
          (·.sendPart (memory.take chunk) last), going)).1 = database.onMember id change := by
  split_ifs
  · refine ⟨_, ?_, by rw [Database.onMember_onMember, Database.onMember_onMember]⟩
    exact fun member => Member.sendPart_apart _ _ _
  · refine ⟨_, ?_, by rw [Database.onMember_onMember]⟩
    exact fun member => Member.sendPart_apart _ _ _

/-- What a turn does to the database. -/
theorem Transmission.turn_database (self : Transmission) (outputSpace : Option Nat)
    (written : Written) (closing : Octets) :
    (self.delivery.turn self.database outputSpace written closing).1 = self.database ∨
    (∃ id change, (∀ member : Member, member.Apart (change member)) ∧
      (self.delivery.turn self.database outputSpace written closing).1 =
        self.database.onMember id change) ∨
    ∃ id change, (∀ member : Member, member.Apart (change member)) ∧ written = .raised ∧
      self.delivery.socks (self.delivery.set.next self.delivery.sockIndex) = some id ∧
      self.chunk outputSpace ≠ 0 ∧
      (self.delivery.turn self.database outputSpace written closing).1 =
        (self.database.onMember id change).abandon id closing := by
  cases at_index : self.delivery.socks (self.delivery.set.next self.delivery.sockIndex) with
  | none => exact .inl (by simp only [Delivery.turn, at_index])
  | some id =>
      cases memory_eq : (self.database.member id).memSock with
      | none => exact .inl (by simp only [Delivery.turn, at_index, memory_eq])
      | some memory =>
          have chunk_eq : self.chunk outputSpace = Member.chunkSize outputSpace memory.length := by
            simp only [Transmission.chunk, at_index, memory_eq, Option.elim]
          by_cases nothing : Member.chunkSize outputSpace memory.length = 0
          · refine .inr (.inl ?_)
            simp only [Delivery.turn, at_index, memory_eq, if_pos nothing]
            exact ⟨id, sent_database _ _ _ _ _ _ _⟩
          · cases written with
            | accepted last =>
                refine .inr (.inl ?_)
                simp only [Delivery.turn, at_index, memory_eq, if_neg nothing]
                exact ⟨id, sent_database _ _ _ _ _ _ _⟩
            | raised =>
                refine .inr (.inr ⟨id, fun member =>
                  { member with
                    memSock := some (memory.drop (Member.chunkSize outputSpace memory.length)) },
                  fun _ => ⟨rfl, rfl⟩, rfl, rfl, by rwa [chunk_eq], ?_⟩)
                simp only [Delivery.turn, at_index, memory_eq, if_neg nothing]

/-- The objects that are unregistered by a call. -/
def Call.Unregisters (registry : Registry) : Call → Nat → Prop
  | .unregister id, other => other = id
  | .close id _ _, other => other = id
  | .closeMatching matching _, other => matching other = true
  | .sendId id message mask interrupted _ _, other =>
      let member := registry.database.member id
      other = id ∧ (member.send (member.frame mask message false) interrupted).2 ≠ none
  | _, _ => False

/-- The objects that are unregistered by what happens. -/
def Registry.Unregisters (config : RegistryConfig) (self : Registry) : Event → Nat → Prop
  | .register _ _ timedOut _ _, id =>
      self.database.registered.card = config.maxWebSocket ∧
        (ascending self.database.registered).find? timedOut = some id
  | .call call, id => call.Unregisters self id
  | .progress progress, id =>
      match self.delivery with
      | some delivery => Transmission.Unregisters ⟨self.database, delivery⟩ progress id
      | none => False
  | .write task .raised, id =>
      match self.senders task with
      | .sending sent _ => id = sent
      | _ => False
  | _, _ => False

/-- A property that is kept when an object is written to or closed, and when some of the objects are
unregistered. -/
structure Withstands (doomed : Nat → Prop) (property : Database → Prop) : Prop where
  onMember : ∀ database id change, (database.member id).Apart (change (database.member id)) →
    property database → property (database.onMember id change)
  unregister : ∀ database id, doomed id → property database → property (database.unregister id)

/-- A property that the objects do not matter to. -/
def Indifferent (property : Database → Prop) : Prop :=
  ∀ database id change, property database → property (database.onMember id change)

/-- The objects that are watched are registered, and both kinds are counted. -/
structure Consistent (maxWebSocket : Nat) (database : Database) : Prop where
  watched_subset : database.watched ⊆ database.registered
  count_eq : database.count = database.watched.card
  bounded : database.registered.card ≤ maxWebSocket

/-- The objects with pending messages are registered, and not among those that go. -/
def Queued (doomed : Nat → Prop) (database : Database) : Prop :=
  ∀ id ∈ database.pending, id ∈ database.registered ∧ ¬doomed id

section

variable {maxWebSocket : Nat} {database : Database}

theorem Consistent.remove (consistent : Consistent maxWebSocket database) (id : Nat) :
    Consistent maxWebSocket (database.remove id) := by
  rw [Database.remove]
  by_cases watched : id ∈ database.watched
  · rw [if_pos watched]
    refine ⟨(Finset.erase_subset _ _).trans consistent.watched_subset, ?_, consistent.bounded⟩
    rw [Finset.card_erase_of_mem watched, ← consistent.count_eq]
  · rw [if_neg watched]
    exact consistent

theorem Consistent.unregister (consistent : Consistent maxWebSocket database) (id : Nat) :
    Consistent maxWebSocket (database.unregister id) := by
  have removed := consistent.remove id
  have unwatched : (database.unregister id).watched = database.watched.erase id := by
    show (Database.remove _ id).watched = _
    rw [Database.remove]
    split_ifs with watched
    · rfl
    · exact (Finset.erase_eq_of_notMem watched).symm
  have count_eq : (database.unregister id).count = (database.remove id).count := by
    show (Database.remove _ id).count = _
    rw [Database.remove, Database.remove]
    split_ifs <;> rfl
  have watched_eq : (database.remove id).watched = database.watched.erase id := by
    rw [Database.remove]
    split_ifs with watched
    · rfl
    · exact (Finset.erase_eq_of_notMem watched).symm
  constructor
  · rw [unwatched, Database.unregister_registered]
    exact Finset.erase_subset_erase id consistent.watched_subset
  · rw [count_eq, removed.count_eq, watched_eq, unwatched]
  · rw [Database.unregister_registered]
    exact (Finset.card_erase_le).trans consistent.bounded

theorem Consistent.watch (consistent : Consistent maxWebSocket database) (id : Nat) :
    Consistent maxWebSocket (database.watch id) := by
  rw [Database.watch]
  by_cases new : id ∈ database.registered ∧ id ∉ database.watched
  · rw [if_pos new]
    refine ⟨Finset.insert_subset new.1 consistent.watched_subset, ?_, consistent.bounded⟩
    show database.count + 1 = (insert id database.watched).card
    rw [Finset.card_insert_of_notMem new.2, consistent.count_eq]
  · rw [if_neg new]
    exact consistent

theorem Consistent.withstands (maxWebSocket : Nat) :
    Withstands (fun _ => True) (Consistent maxWebSocket) where
  onMember _ _ _ _ consistent := ⟨consistent.1, consistent.2, consistent.3⟩
  unregister _ id _ consistent := consistent.unregister id

/-- `Create_Set` finds all objects that are watched. -/
theorem Consistent.createSet_ok (consistent : Consistent maxWebSocket database) :
    Database.createSet database = .ok (ascending database.watched) database :=
  if_pos fun _ watched => consistent.watched_subset watched

end

theorem Queued.withstands (doomed : Nat → Prop) : Withstands doomed (Queued doomed) where
  onMember _ _ _ _ queued := queued
  unregister database id goes queued := by
    intro other pending
    rw [Database.unregister_pending] at pending
    have ⟨registered, stays⟩ := queued other pending
    rw [Database.unregister_registered, Finset.mem_erase]
    refine ⟨⟨?_, registered⟩, stays⟩
    rintro rfl
    exact stays goes

/-- `Get_Socket` looks only for objects that are registered. -/
theorem Database.firstReady_ok {database : Database} {ids : List Nat}
    (registered : ∀ id ∈ ids, id ∈ database.registered) :
    ∃ first, database.firstReady ids = .ok first := by
  induction ids with
  | nil => exact ⟨none, rfl⟩
  | cons id ids ih =>
      rw [Database.firstReady]
      have later := ih fun other among => registered other (List.mem_cons_of_mem id among)
      rw [if_neg (not_not_intro (registered id List.mem_cons_self))]
      split_ifs with sending messages
      · exact later
      · exact ⟨some id, rfl⟩
      · exact later

theorem Queued.getSocket_ok {doomed : Nat → Prop} {database : Database}
    (queued : Queued doomed database) :
    ∃ taken after, Database.getSocket database = .ok taken after := by
  obtain ⟨first, first_eq⟩ := Database.firstReady_ok fun id pending => (queued id pending).1
  rw [Database.getSocket, first_eq]
  cases first with
  | none => exact ⟨_, _, rfl⟩
  | some id => exact ⟨_, _, rfl⟩

/-! ## What the operations keep -/

theorem Indifferent.setInMem {property : Database → Prop} (indifferent : Indifferent property)
    (id : Nat) (value : Bool) : Keeps property (Database.setInMem id value) :=
  keeps_modify fun database => indifferent database _ _

theorem Indifferent.unchanged {property : Database → Prop} (indifferent : Indifferent property)
    (registered : Finset Nat) :
    Indifferent fun database => database.registered = registered ∧ property database :=
  fun database id change holds => ⟨holds.1, indifferent database id change holds.2⟩

namespace Withstands

variable {doomed : Nat → Prop} {property : Database → Prop}

theorem abandon (withstands : Withstands doomed property) {database : Database} {id : Nat}
    (goes : doomed id) (closing : Octets) (holds : property database) :
    property (database.abandon id closing) :=
  withstands.onMember _ _ _ ⟨rfl, rfl⟩ (withstands.unregister _ _ goes holds)

/-- As long as no object is unregistered. -/
theorem unchanged (withstands : Withstands doomed property) (registered : Finset Nat) :
    Withstands (fun _ => False)
      (fun database => database.registered = registered ∧ property database) where
  onMember database id change apart holds :=
    ⟨holds.1, withstands.onMember database id change apart holds.2⟩
  unregister _ _ goes := goes.elim

theorem sendOn (withstands : Withstands doomed property) (id : Nat) (octets : Octets)
    (interrupted : Option Nat) : Keeps property (Database.sendOn id octets interrupted) := by
  intro database holds
  rw [Database.sendOn]
  have apart := (database.member id).send_apart octets interrupted
  cases sent : (database.member id).send octets interrupted with
  | mk member exn =>
      rw [sent] at apart
      cases exn with
      | none => exact withstands.onMember database id (fun _ => member) apart holds
      | some exn => exact withstands.onMember database id (fun _ => member) apart holds

/-- What follows after an object has been unregistered to close it. -/
theorem closing (withstands : Withstands doomed property) {id : Nat} (closing : Octets)
    (raises : Bool) {database : Database}
    (holds : property (if id ∈ database.registered then database.unregister id else database)) :
    property (left (Database.closeSocket id closing raises database)) := by
  have last : Keeps property
      (modify fun database => database.onMember id Member.shutdown : Protected PUnit) :=
    keeps_modify fun database holds => withstands.onMember database _ _ ⟨rfl, rfl⟩ holds
  have written : Keeps property (do
      modify fun self => self.onMember id fun member =>
        { member with network := member.network ++ closing }
      if raises then throw .socketError
      modify fun self => self.onMember id Member.shutdown : Protected PUnit) :=
    (keeps_modify fun database holds => withstands.onMember database _ _ ⟨rfl, rfl⟩ holds).bind fun _ =>
      Keeps.ite (fun _ => (keeps_throw _).bind fun _ => last) fun _ => last
  exact written _ holds

theorem closeSocket (withstands : Withstands doomed property) {id : Nat} (goes : doomed id)
    (closing : Octets) (raises : Bool) :
    Keeps property (Database.closeSocket id closing raises) := by
  intro database holds
  apply withstands.closing
  split_ifs
  · exact withstands.unregister _ _ goes holds
  · exact holds

/-- `Register` first makes room, if it can, and then inserts the object. -/
theorem register {room : Database → Prop} (withstands : Withstands doomed room)
    {config : RegistryConfig} {id : Nat} {timedOut : Nat → Bool} {database : Database}
    (not_full : database.registered.card ≠ config.maxWebSocket → room database)
    (closed : ∀ victim, database.registered.card = config.maxWebSocket →
      (ascending database.registered).find? timedOut = some victim →
        room (database.unregister victim))
    (insert : ∀ database, room database →
      property { database with registered := insert id database.registered })
    (keeps : ∀ database, room database → property database) (holds : property database)
    (closing : Octets) (raises : Bool) :
    property (left (Database.register config id timedOut closing raises database)) := by
  have inserted : ∀ database, room database →
      property (left (Database.register.insertNew id database)) := by
    intro database has_room
    show property (left ((ite (id ∈ database.registered) _ _ : Protected Bool) database))
    split_ifs
    · exact keeps database has_room
    · exact insert database has_room
  show property (left ((ite (database.registered.card = config.maxWebSocket) _ _ :
    Protected Bool) database))
  by_cases full : database.registered.card = config.maxWebSocket
  · rw [if_pos full]
    cases found : (ascending database.registered).find? timedOut with
    | none => exact holds
    | some victim =>
        have registered : victim ∈ database.registered :=
          mem_ascending.1 (List.mem_of_find?_eq_some found)
        have made_room : room (if victim ∈ database.registered then database.unregister victim
            else database) := by
          rw [if_pos registered]
          exact closed victim full found
        have after := withstands.closing closing raises made_room
        show property (left (EStateM.bind (Database.closeSocket victim closing raises)
          (fun _ => Database.register.insertNew id) database))
        rw [EStateM.bind]
        cases done : Database.closeSocket victim closing raises database with
        | ok _ next =>
            rw [done] at after
            exact inserted next after
        | error _ next =>
            rw [done] at after
            exact keeps next after
  · rw [if_neg full]
    exact inserted database (not_full full)

theorem closeId (withstands : Withstands doomed property) (id : Nat) (closing : Octets) :
    Keeps property (Database.closeId id closing) := by
  refine keeps_get_bind fun database holds => ?_
  exact (Keeps.ite (fun _ => keeps_modify fun after after_holds =>
    withstands.onMember after _ _ ⟨rfl, rfl⟩ after_holds) fun _ => keeps_throw _) database holds

theorem closeMatching (withstands : Withstands doomed property) {matching : Nat → Bool}
    (go : ∀ id, matching id = true → doomed id) (closing : Nat → Octets) {database : Database}
    (holds : property database) : property (database.closeMatching matching closing) := by
  rw [Database.closeMatching]
  generalize ascending database.registered = ids
  induction ids generalizing database with
  | nil => exact holds
  | cons id ids ih =>
      rw [List.foldl_cons]
      apply ih
      split_ifs with among
      · exact withstands.abandon (go id among) _ holds
      · exact holds

theorem sendId (withstands : Withstands doomed property) {id : Nat} {octets : Octets}
    {interrupted : Option Nat} (closing : Octets) {database : Database}
    (goes : ((database.member id).send octets interrupted).2 ≠ none → doomed id)
    (holds : property database) :
    property (left (Database.sendId id octets interrupted closing database)) := by
  show property (left ((ite (id ∈ database.registered) _ _ : Protected Unit) database))
  by_cases registered : id ∈ database.registered
  · rw [if_pos registered]
    show property (left (EStateM.tryCatch (Database.sendOn id octets interrupted)
      (fun _ => modify (·.abandon id closing)) database))
    rw [EStateM.tryCatch, Database.sendOn]
    have apart := (database.member id).send_apart octets interrupted
    cases sent : (database.member id).send octets interrupted with
    | mk member exn =>
        rw [sent] at goes apart
        cases exn with
        | none => exact withstands.onMember database id (fun _ => member) apart holds
        | some exn =>
            exact withstands.abandon (goes (Option.some_ne_none exn)) closing
              (withstands.onMember database id (fun _ => member) apart holds)
  · rw [if_neg registered]
    exact holds

theorem sendSocket (withstands : Withstands doomed property) {id : Nat} {asynchronous : Bool}
    (indifferent : asynchronous = true → Indifferent property)
    (enqueue : asynchronous = true → ∀ database, property database →
      property (database.enqueue id))
    (octets : Octets) (interrupted : Option Nat) :
    Keeps property (Database.sendSocket id octets interrupted asynchronous) :=
  Keeps.ite
    (fun queues => ((indifferent queues).setInMem id true).bind fun _ =>
      (withstands.sendOn id octets interrupted).bind fun _ =>
        ((indifferent queues).setInMem id false).bind fun _ => keeps_modify (enqueue queues))
    fun _ => withstands.sendOn id octets interrupted

/-- A memory send to one object, which may be queued. -/
theorem initializeRecipient (withstands : Withstands doomed property)
    (indifferent : Indifferent property) {id : Nat}
    (enqueue : ∀ database, property database → property (database.enqueue id))
    (frame : Nat → Octets) (interrupted : Nat → Option Nat) (asynchronous : Bool) :
    Keeps property (Database.initializeRecipient frame interrupted asynchronous id) := by
  refine (keeps_modify fun database => indifferent database _ _).bind fun _ =>
    (indifferent.setInMem id true).bind fun _ => (withstands.sendOn _ _ _).bind fun _ =>
      (indifferent.setInMem id false).bind fun _ => keeps_get_bind fun database holds => ?_
  exact (Keeps.ite (fun _ => (keeps_modify enqueue).bind fun _ => keeps_pure _) fun _ =>
    keeps_pure _) database holds

theorem initializeRecipients (withstands : Withstands doomed property)
    (indifferent : Indifferent property) {ids : List Nat}
    (enqueue : ∀ id ∈ ids, ∀ database, property database → property (database.enqueue id))
    (frame : Nat → Octets) (interrupted : Nat → Option Nat) (asynchronous : Bool) :
    Keeps property (Database.initializeRecipients frame interrupted asynchronous ids) := by
  induction ids with
  | nil => exact keeps_pure _
  | cons id ids ih =>
      exact (withstands.initializeRecipient indifferent (enqueue id List.mem_cons_self) _ _ _).bind
        fun _ =>
        (ih fun other among => enqueue other (List.mem_cons_of_mem id among)).bind fun _ =>
          keeps_pure _

/-- The start of a broadcast, whether it goes on or an exception ends it. -/
theorem broadcast (withstands : Withstands doomed property)
    (indifferent : Indifferent property) {matching : Nat → Bool}
    {database : Database}
    (enqueue : ∀ id ∈ database.matched matching, ∀ after, property after →
      property (after.enqueue id))
    (frame : Nat → Octets) (interrupted : Nat → Option Nat) (asynchronous : Bool)
    (holds : property database) :
    property (left (Database.broadcast matching frame interrupted asynchronous database)) := by
  refine ((withstands.initializeRecipients indifferent enqueue frame interrupted asynchronous).bind
    fun recipients => Keeps.ite (fun _ => keeps_pure _) fun _ => keeps_get_bind ?_) database holds
  intro after after_holds
  cases Delivery.start after recipients with
  | ok delivery => exact after_holds
  | error exn => exact after_holds

/-- What happens while a message is sent to recipients. -/
theorem transmission (withstands : Withstands doomed property) {self : Transmission}
    {progress : Progress} (go : ∀ id, self.Unregisters progress id → doomed id)
    (holds : property self.database) : property (self.step progress).database := by
  cases progress with
  | poll polled => exact holds
  | timeout kept =>
      show property (self.delivery.timeout self.database kept).1
      rw [Delivery.timeout]
      have all_go : ∀ id ∈ self.delivery.remaining, kept id = false → doomed id :=
        fun id left not_kept => go id ⟨left, not_kept⟩
      revert all_go
      generalize self.delivery.remaining = ids
      generalize self.database = database at holds ⊢
      intro all_go
      induction ids generalizing database with
      | nil => exact holds
      | cons id ids ih =>
          rw [List.foldl_cons]
          refine ih _ ?_ fun other left => all_go other (List.mem_cons_of_mem id left)
          split_ifs with kept_id
          · exact holds
          · exact withstands.unregister _ _
              (all_go id List.mem_cons_self (Bool.not_eq_true _ ▸ kept_id)) holds
  | turn outputSpace written closing =>
      show property (self.delivery.turn self.database outputSpace written closing).1
      obtain database_eq | ⟨id, change, apart, database_eq⟩ |
          ⟨id, change, apart, rfl, at_index, something, database_eq⟩ :=
        self.turn_database outputSpace written closing
      · rw [database_eq]
        exact holds
      · rw [database_eq]
        exact withstands.onMember _ _ _ (apart _) holds
      · rw [database_eq]
        exact withstands.abandon (go id ⟨at_index, something⟩) closing
          (withstands.onMember _ _ _ (apart _) holds)

/-- A part of a queued message is written. -/
theorem writePart (withstands : Withstands doomed property)
    (indifferent : Indifferent property) {self : Registry} {id : Nat}
    {written : Written} (goes : written = .raised → doomed id) (task chunkSize : Nat)
    (holds : property self.database) :
    property (self.writePart task id chunkSize written).database := by
  rw [Registry.writePart]
  cases (self.database.member id).messages with
  | nil => exact holds
  | cons message messages =>
      cases written with
      | accepted last =>
          dsimp only
          exact indifferent _ _ _ (indifferent _ _ _ holds)
      | raised =>
          dsimp only
          exact withstands.abandon (goes rfl) [] (indifferent _ _ _ holds)

/-- A call. -/
theorem call (withstands : Withstands doomed property) {registry : Registry} {call : Call}
    (go : ∀ id, call.Unregisters registry id → doomed id)
    (watch : ∀ database id, property database → property (database.watch id))
    (remove : ∀ database id, property database → property (database.remove id))
    (notEmpty : ∀ database, property database → property database.notEmpty)
    (enqueue : ∀ id message isBinary mask interrupted,
      call = .sendSocket id message isBinary mask interrupted true → Indifferent property ∧
        ∀ database, database.registered = registry.database.registered → property database →
          property (database.enqueue id))
    (holds : property registry.database) :
    property (left (call.perform registry.database)) := by
  cases call with
  | watch id => exact watch _ id holds
  | remove id => exact remove _ id holds
  | unregister id => exact withstands.unregister _ id (go id rfl) holds
  | notEmpty => exact notEmpty _ holds
  | close id closing raises =>
      exact withstands.closeSocket (go id rfl) closing raises _ holds
  | closeId id closing => exact withstands.closeId id closing _ holds
  | closeMatching matching closing => exact withstands.closeMatching go closing holds
  | sendId id message mask interrupted asynchronous closing =>
      exact withstands.sendId closing (fun fails => go id ⟨rfl, fails⟩) holds
  | sendSocket id message isBinary mask interrupted asynchronous =>
      refine ((withstands.unchanged registry.database.registered).sendSocket ?_ ?_ _ interrupted
        registry.database ⟨rfl, holds⟩).2
      · rintro rfl
        exact (enqueue id message isBinary mask interrupted rfl).1.unchanged _
      · rintro rfl database ⟨same, database_holds⟩
        exact ⟨same, (enqueue id message isBinary mask interrupted rfl).2 database same
          database_holds⟩

end Withstands

/-! ## The steps -/

variable {config : RegistryConfig} {self next : Registry} {event : Event}

theorem outcome_snd {α : Type} (result : EStateM.Result Exn Database α) :
    (outcome result).2 = left result := by
  cases result <;> rfl

/-- The database after the objects that are sent to have got an object. -/
theorem Database.getSocket_left (database : Database) :
    (left (Database.getSocket database)).registered = database.registered ∧
      (left (Database.getSocket database)).watched = database.watched ∧
      (left (Database.getSocket database)).count = database.count ∧
      ∀ id ∈ (left (Database.getSocket database)).pending, id ∈ database.pending := by
  rw [Database.getSocket]
  cases database.firstReady database.pending with
  | error exn => exact ⟨rfl, rfl, rfl, fun _ => id⟩
  | ok first =>
      cases first with
      | none => exact ⟨rfl, rfl, rfl, fun _ => id⟩
      | some first => exact ⟨rfl, rfl, rfl, fun _ => List.mem_of_mem_erase⟩

/-- A property that all changes of the database keep that a step may consist of. -/
structure Maintained (config : RegistryConfig) (registry : Registry) (event : Event)
    (property room : Database → Prop) : Prop where
  withstands : Withstands (registry.Unregisters config event) property
  indifferent : Indifferent property
  room_withstands : Withstands (registry.Unregisters config event) room
  watch : ∀ database id, property database → property (database.watch id)
  remove : ∀ database id, property database → property (database.remove id)
  notEmpty : ∀ database, property database → property database.notEmpty
  releaseSocket : ∀ database id, property database → property (database.releaseSocket id)
  getSocket : ∀ database, property database → property (left (Database.getSocket database))
  /-- A message is queued for an object, and no object is unregistered. -/
  enqueue : (∀ id, ¬registry.Unregisters config event id) → ∀ id ∈ registry.database.registered,
    ∀ database, database.registered = registry.database.registered → property database →
      property (database.enqueue id)
  /-- There is room for one more object if there are not too many. -/
  not_full : ∀ database, property database →
    database.registered.card ≠ config.maxWebSocket → room database
  /-- There is room for one more object after one has been unregistered. -/
  closed : ∀ victim, registry.Unregisters config event victim → ∀ database,
    victim ∈ database.registered → property database → room (database.unregister victim)
  insert : ∀ database id, room database →
    property { database with registered := insert id database.registered }
  of_room : ∀ database, room database → property database

/-- What all the changes keep that a step may consist of is kept by the step. -/
theorem Maintained.step {property room : Database → Prop}
    (maintained : Maintained config self event property room)
    (queues : ∀ id message isBinary mask interrupted,
      event = .call (.sendSocket id message isBinary mask interrupted true) →
        ∀ database, database.registered = self.database.registered → property database →
          property (database.enqueue id))
    (stepped : Registry.Steps config self event next) (holds : property self.database) :
    property next.database := by
  obtain ⟨possible, rfl⟩ := stepped
  cases event with
  | create isClientSide fd =>
      exact maintained.indifferent self.database (self.issued + 1) (fun _ => { isClientSide, fd })
        holds
  | register isClientSide fd timedOut closing raises =>
      have holds_created := maintained.indifferent self.database (self.issued + 1)
        (fun _ => { isClientSide, fd }) holds
      show property (outcome _).2
      rw [outcome_snd]
      refine maintained.room_withstands.register (maintained.not_full (self.database.onMember
        (self.issued + 1) fun _ => { isClientSide, fd }) holds_created) ?_ (fun database =>
          maintained.insert database _) maintained.of_room holds_created closing raises
      intro victim full found
      exact maintained.closed victim ⟨full, found⟩ _
        (mem_ascending.1 (List.mem_of_find?_eq_some found)) holds_created
  | call call =>
      show property (outcome _).2
      rw [outcome_snd]
      refine maintained.withstands.call (fun _ unregisters => unregisters) maintained.watch
        maintained.remove maintained.notEmpty ?_ holds
      rintro id message isBinary mask interrupted rfl
      exact ⟨maintained.indifferent, queues id message isBinary mask interrupted rfl⟩
  | broadcast matching message mask interrupted asynchronous =>
      show property (outcome _).2
      rw [outcome_snd]
      refine ((maintained.withstands.unchanged self.database.registered).broadcast
        (maintained.indifferent.unchanged _) ?_ _ interrupted asynchronous ⟨rfl, holds⟩).2
      rintro id among database ⟨same, database_holds⟩
      exact ⟨same, maintained.enqueue (fun _ unregisters => unregisters) id
        (mem_ascending.1 (List.mem_filter.1 among).1) database same database_holds⟩
  | progress progress =>
      cases delivery_eq : self.delivery with
      | none =>
          simp only [Registry.step, delivery_eq]
          exact holds
      | some delivery =>
          simp only [Registry.step, delivery_eq]
          refine maintained.withstands.transmission (fun id unregisters => ?_) holds
          simp only [Registry.Unregisters, delivery_eq]
          exact unregisters
  | getSocket task =>
      have after := maintained.getSocket self.database holds
      simp only [Registry.step]
      cases done : Database.getSocket self.database with
      | error exn database =>
          rw [done] at after
          exact after
      | ok taken database =>
          rw [done] at after
          cases taken with
          | none => exact after
          | some id => exact after
  | begin task outputSpace =>
      cases sender_eq : self.senders task with
      | taken id =>
          simp only [Registry.step, sender_eq]
          exact maintained.indifferent _ _ _ holds
      | _ =>
          simp only [Registry.step, sender_eq]
          exact holds
  | write task written =>
      cases sender_eq : self.senders task with
      | sending id chunkSize =>
          simp only [Registry.step, sender_eq]
          refine maintained.withstands.writePart maintained.indifferent (fun raised => ?_) task chunkSize holds
          subst raised
          simp only [Registry.Unregisters, sender_eq]
      | _ =>
          simp only [Registry.step, sender_eq]
          exact holds
  | finish task =>
      cases sender_eq : self.senders task with
      | sending id chunkSize =>
          simp only [Registry.step, sender_eq]
          exact maintained.releaseSocket _ _ (maintained.indifferent _ _ _ holds)
      | _ =>
          simp only [Registry.step, sender_eq]
          exact holds

/-- The consistency is maintained by every step. -/
theorem Consistent.maintained (config : RegistryConfig) (self : Registry) (event : Event) :
    Maintained config self event (Consistent config.maxWebSocket) fun database =>
      Consistent config.maxWebSocket database ∧
        database.registered.card < config.maxWebSocket where
  withstands :=
    { onMember := (Consistent.withstands _).onMember
      unregister := fun database id _ => (Consistent.withstands _).unregister database id trivial }
  indifferent _ _ _ consistent := ⟨consistent.1, consistent.2, consistent.3⟩
  room_withstands :=
    { onMember := fun database id change apart room =>
        ⟨(Consistent.withstands _).onMember database id change apart room.1, room.2⟩
      unregister := fun database id _ room => by
        refine ⟨room.1.unregister id, lt_of_le_of_lt ?_ room.2⟩
        rw [Database.unregister_registered]
        exact Finset.card_erase_le }
  watch _ id consistent := consistent.watch id
  remove _ id consistent := consistent.remove id
  notEmpty _ consistent := ⟨consistent.1, consistent.2, consistent.3⟩
  releaseSocket _ _ consistent := ⟨consistent.1, consistent.2, consistent.3⟩
  getSocket database consistent := by
    have ⟨registered_eq, watched_eq, count_eq, _⟩ := database.getSocket_left
    refine ⟨?_, ?_, ?_⟩
    · rw [watched_eq, registered_eq]
      exact consistent.watched_subset
    · rw [count_eq, watched_eq]
      exact consistent.count_eq
    · rw [registered_eq]
      exact consistent.bounded
  enqueue _ _ _ _ _ consistent := ⟨consistent.1, consistent.2, consistent.3⟩
  not_full _ consistent not_full := ⟨consistent, lt_of_le_of_ne consistent.bounded not_full⟩
  closed victim _ database registered consistent := by
    refine ⟨consistent.unregister victim, lt_of_lt_of_le ?_ consistent.bounded⟩
    rw [Database.unregister_registered]
    exact Finset.card_erase_lt_of_mem registered
  insert database id room := by
    refine ⟨room.1.watched_subset.trans (Finset.subset_insert _ _), room.1.count_eq, ?_⟩
    exact (Finset.card_insert_le _ _).trans (Nat.succ_le_of_lt room.2)
  of_room _ room := room.1

/-- The queue is maintained by the steps that unregister no object in it. -/
theorem Queued.maintained (config : RegistryConfig) (self : Registry) (event : Event) :
    Maintained config self event (Queued (self.Unregisters config event))
      (Queued (self.Unregisters config event)) where
  withstands := Queued.withstands _
  indifferent _ _ _ queued := queued
  room_withstands := Queued.withstands _
  watch database id queued := by
    rw [Database.watch]
    split_ifs
    · exact queued
    · exact queued
  remove database id queued := by
    rw [Queued, Database.remove_pending, Database.remove_registered]
    exact queued
  notEmpty _ queued := queued
  releaseSocket _ _ queued := queued
  getSocket database queued := by
    have ⟨registered_eq, _, _, pending_subset⟩ := database.getSocket_left
    intro id pending
    rw [registered_eq]
    exact queued id (pending_subset id pending)
  enqueue nobody id registered database same queued := by
    intro other pending
    obtain earlier | last := List.mem_append.1 pending
    · exact queued other earlier
    · rw [List.mem_singleton.1 last]
      refine ⟨?_, nobody id⟩
      show id ∈ database.registered
      rw [same]
      exact registered
  not_full _ queued _ := queued
  closed victim unregisters database _ queued :=
    (Queued.withstands _).unregister database victim unregisters queued
  insert _ id queued other pending :=
    ⟨Finset.mem_insert_of_mem (queued other pending).1, (queued other pending).2⟩
  of_room _ queued := queued

/-! ## Whole runs -/

instance (self : Transmission) (progress : Progress) (id : Nat) :
    Decidable (self.Unregisters progress id) := by
  unfold Transmission.Unregisters
  match progress with
  | .poll _ | .timeout _ | .turn _ (.accepted _) _ | .turn _ .raised _ => infer_instance

instance (registry : Registry) (call : Call) (id : Nat) :
    Decidable (call.Unregisters registry id) := by
  unfold Call.Unregisters
  match call with
  | .watch _ | .remove _ | .unregister _ | .notEmpty | .close _ _ _ | .closeId _ _
  | .closeMatching _ _ | .sendId _ _ _ _ _ _ | .sendSocket _ _ _ _ _ _ => infer_instance

instance (config : RegistryConfig) (self : Registry) (event : Event) (id : Nat) :
    Decidable (self.Unregisters config event id) := by
  unfold Registry.Unregisters
  match event with
  | .progress _ =>
      dsimp only
      match self.delivery with
      | some _ | none => infer_instance
  | .write task .raised =>
      dsimp only
      match self.senders task with
      | .waiting | .taken _ | .sending _ _ | .terminated => infer_instance
  | .create _ _ | .register _ _ _ _ _ | .call _ | .broadcast _ _ _ _ _ | .getSocket _ | .begin _ _
  | .write _ (.accepted _) | .finish _ => infer_instance

/-- What is excluded: an object that has pending messages is unregistered, and an object that is not
registered is sent to asynchronously. -/
def Registry.Settled (config : RegistryConfig) (self : Registry) (event : Event) : Prop :=
  (∀ id ∈ self.database.pending, ¬self.Unregisters config event id) ∧
    match event with
    | .call (.sendSocket id _ _ _ _ true) => id ∈ self.database.registered
    | _ => True

instance (config : RegistryConfig) (self : Registry) (event : Event) :
    Decidable (self.Settled config event) := by
  unfold Registry.Settled
  match event with
  | .call (.sendSocket _ _ _ _ _ true) | .call (.sendSocket _ _ _ _ _ false)
  | .call (.watch _) | .call (.remove _) | .call (.unregister _) | .call .notEmpty
  | .call (.close _ _ _) | .call (.closeId _ _) | .call (.closeMatching _ _)
  | .call (.sendId _ _ _ _ _ _) | .create _ _ | .register _ _ _ _ _ | .broadcast _ _ _ _ _
  | .progress _ | .getSocket _ | .begin _ _ | .write _ _ | .finish _ => infer_instance

/-- Every run keeps the objects that are watched among those that are registered, with their number,
and not more than there may be; `Create_Set` never fails.  As long as no object with pending messages
is unregistered, and none that is not registered gets any, the objects with pending messages are
registered, and `Get_Socket` never fails. -/
theorem registry_consistent_of_run {config : RegistryConfig} {labels : List Event}
    {state : Registry} :
    (Run (Registry.Steps config) {} labels state →
      Consistent config.maxWebSocket state.database ∧
        ∃ watched, Database.createSet state.database = .ok watched state.database) ∧
    (Run (Guarded (Registry.Settled config) (Registry.Steps config)) {} labels state →
      (∀ id ∈ state.database.pending, id ∈ state.database.registered) ∧
        ∃ taken after, Database.getSocket state.database = .ok taken after) := by
  constructor
  · intro run
    have consistent : Consistent config.maxWebSocket state.database := by
      refine run.invariant (fun state => Consistent config.maxWebSocket state.database)
        ⟨Finset.empty_subset _, rfl, Nat.zero_le _⟩ ?_
      intro state next event consistent stepped
      refine (Consistent.maintained config state event).step ?_ stepped consistent
      exact fun _ _ _ _ _ _ _ _ consistent => ⟨consistent.1, consistent.2, consistent.3⟩
    exact ⟨consistent, _, consistent.createSet_ok⟩
  · intro run
    have queued : Queued (fun _ => False) state.database := by
      refine run.invariant (fun state => Queued (fun _ => False) state.database)
        (fun _ pending => absurd pending List.not_mem_nil) ?_
      intro state next event queued stepped
      obtain ⟨⟨stay, sent⟩, stepped⟩ := stepped
      have before : Queued (state.Unregisters config event) state.database := fun id pending =>
        ⟨(queued id pending).1, stay id pending⟩
      have after := (Queued.maintained config state event).step (by
        rintro id message isBinary mask interrupted rfl database same database_queued
        have maintained := Queued.maintained config state
          (.call (.sendSocket id message isBinary mask interrupted true))
        exact maintained.enqueue (fun _ unregisters => unregisters) id sent database same
          database_queued) stepped before
      exact fun id pending => ⟨(after id pending).1, not_false⟩
    exact ⟨fun id pending => (queued id pending).1, queued.getSocket_ok⟩

/-- At most two objects. -/
def twoAtMost : RegistryConfig where
  maxWebSocket := 2
  messageQueueSize := 4
  messageQueueSize_pos := by decide

/-- An object is registered and watched, and gets a message asynchronously. -/
def oneMessage : List Event :=
  [.register false 3 (fun _ => false) [] false, .call (.watch 1),
    .broadcast (fun _ => true) [72, 105] (fun _ _ => 0) (fun _ => none) true]

/-- The message is sent, and the object is unregistered after that. -/
def messageSent : List Event :=
  oneMessage ++ [.getSocket 0, .begin 0 none, .write 0 (.accepted 4), .finish 0,
    .call (.unregister 1)]

theorem registry_consistent_message : ∃ state : Registry,
    Consistent 2 state.database ∧ state.database.registered = ∅ ∧
      (∀ id ∈ state.database.pending, id ∈ state.database.registered) ∧
      ∃ taken after, Database.getSocket state.database = .ok taken after := by
  have run : Run (Guarded (Registry.Settled twoAtMost) (Registry.Steps twoAtMost)) {} messageSent
      (messageSent.foldl (Registry.step twoAtMost) {}) :=
    (@Execution.run_of_allPossible _ _ _
      (fun state label => Registry.Settled twoAtMost state label ∧ state.Possible label) _
      (Registry.step twoAtMost) messageSent (by decide +kernel)).mono
        fun ⟨⟨settled, possible⟩, stepped⟩ => ⟨settled, possible, stepped⟩
  exact ⟨_, (registry_consistent_of_run.1 run.of_guarded).1, by decide +kernel,
    registry_consistent_of_run.2 run⟩

/-- An object is unregistered before its message has been sent, and the next task that asks for an
object fails. -/
theorem unregistered_still_pending : ∃ state,
    Run (Registry.Steps twoAtMost) {} (oneMessage ++ [.call (.unregister 1)]) state ∧
      1 ∈ state.database.pending ∧ 1 ∉ state.database.registered ∧
      Database.getSocket state.database = .error .constraintError state.database := by
  refine ⟨_, Execution.run_of_allPossible (by decide +kernel), by decide +kernel,
    by decide +kernel, rfl⟩

end WebSocket
end AdaWebServer

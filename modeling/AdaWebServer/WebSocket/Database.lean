import Mathlib.Data.Finset.Lattice.Fold
import Mathlib.Order.Lattice.Nat
import Mathlib.Logic.Function.Basic
import AdaWebServer.WebSocket.Rfc6455

/-!
# The database of the registry

The protected object `DB` keeps the registered objects, those that are watched, those whose pending
messages are being sent and the queue of those that have pending messages.  The objects themselves
are shared with the tasks, and live on when they are no longer registered.
-/

namespace AdaWebServer
namespace WebSocket

open Http2 (Octets Exn)

/-- The elements of a set in ascending order. -/
def ascending (ids : Finset Nat) : List Nat :=
  (List.range (ids.sup id + 1)).filter fun id => id ∈ ids

@[simp]
theorem mem_ascending {ids : Finset Nat} {id : Nat} : id ∈ ascending ids ↔ id ∈ ids := by
  rw [ascending, List.mem_filter, List.mem_range, decide_eq_true_iff]
  exact ⟨And.right, fun among =>
    ⟨Nat.lt_succ_of_le (@Finset.le_sup _ _ _ _ ids (fun id => id) id among), among⟩⟩

theorem ascending_nodup (ids : Finset Nat) : (ascending ids).Nodup :=
  List.Nodup.filter _ List.nodup_range

/-- What the registry uses of an `Object`: its side, its descriptor, the redirection to the memory
socket, the messages that wait to be sent, and what has been written to the network. -/
structure Member where
  isClientSide : Bool := false
  fd : Int := 0
  inMem : Bool := false
  memSock : Option Octets := none
  messages : List Octets := []
  network : Octets := []

namespace Member

/-- `Send` of all octets: they go to the memory socket or to the network.  An exception may interrupt
it after some octets. -/
def send (self : Member) (octets : Octets) (interrupted : Option Nat) : Member × Option Exn :=
  let written := interrupted.elim octets octets.take
  if self.inMem then
    match self.memSock with
    | none => (self, some .constraintError)
    | some memory =>
        ({ self with memSock := some (memory ++ written) }, interrupted.map fun _ => .socketError)
  else
    ({ self with network := self.network ++ written }, interrupted.map fun _ => .socketError)

/-- `Shutdown`. -/
def shutdown (self : Member) : Member := { self with fd := -1 }

end Member

/-- The protected object `DB`, and the objects. -/
structure Database where
  signal : Bool := false
  newPending : Bool := false
  count : Nat := 0
  registered : Finset Nat := ∅
  sending : Finset Nat := ∅
  pending : List Nat := []
  watched : Finset Nat := ∅
  member : Nat → Member := fun _ => {}

/-- The configuration of the registry. -/
structure RegistryConfig where
  /-- `Max_WebSocket`. -/
  maxWebSocket : Nat
  /-- `WebSocket_Send_Message_Queue_Size`. -/
  messageQueueSize : Nat
  messageQueueSize_pos : 0 < messageQueueSize

/-- A protected operation. -/
abbrev Protected := EStateM Exn Database

namespace Database

/-- Change an object. -/
def onMember (self : Database) (id : Nat) (change : Member → Member) : Database :=
  { self with member := Function.update self.member id (change (self.member id)) }

/-- `Signal_Socket`. -/
def signalSocket (self : Database) : Database := { self with signal := true }

/-- `Remove`. -/
def remove (self : Database) (id : Nat) : Database :=
  if id ∈ self.watched then
    { self with watched := self.watched.erase id, count := self.count - 1 }
  else self

/-- `Unregister`. -/
def unregister (self : Database) (id : Nat) : Database :=
  ({ self with
    registered := self.registered.erase id
    sending := self.sending.erase id }.remove id).signalSocket

/-- `Watch`. -/
def watch (self : Database) (id : Nat) : Database :=
  if id ∈ self.registered ∧ id ∉ self.watched then
    { self with watched := insert id self.watched, count := self.count + 1 }.signalSocket
  else self

/-- `Release_Socket`. -/
def releaseSocket (self : Database) (id : Nat) : Database :=
  { self with sending := self.sending.erase id, newPending := true }

/-- `Shutdown` of an object that has failed, with what `Close` still writes. -/
def abandon (self : Database) (id : Nat) (closing : Octets) : Database :=
  (self.unregister id).onMember id fun member =>
    { member with network := member.network ++ closing }.shutdown

/-- `Send` of all octets by an object. -/
def sendOn (id : Nat) (octets : Octets) (interrupted : Option Nat) : Protected Unit := fun self =>
  match (self.member id).send octets interrupted with
  | (member, none) => .ok () (self.onMember id fun _ => member)
  | (member, some exn) => .error exn (self.onMember id fun _ => member)

/-- `Close` of one object, with what it writes; an exception leaves the socket open. -/
def closeSocket (id : Nat) (closing : Octets) (raises : Bool) : Protected Unit := do
  modify fun self => if id ∈ self.registered then self.unregister id else self
  modify fun self => self.onMember id fun member =>
    { member with network := member.network ++ closing }
  if raises then throw .socketError
  modify fun self => self.onMember id Member.shutdown

/-- `Close` of the object with an identifier: it stays registered. -/
def closeId (id : Nat) (closing : Octets) : Protected Unit := do
  if id ∈ (← get).registered then
    modify fun self => self.onMember id fun member =>
      { member with network := member.network ++ closing }
  else
    throw .socketError

/-- `Close` of all objects that match. -/
def closeMatching (matching : Nat → Bool) (closing : Nat → Octets) (self : Database) : Database :=
  (ascending self.registered).foldl
    (fun database id => if matching id then database.abandon id (closing id) else database) self

/-- `Create_Set`. -/
def createSet : Protected (List Nat) := fun self =>
  if ∀ id ∈ self.watched, id ∈ self.registered then .ok (ascending self.watched) self
  else .error .constraintError self

/-- The barrier of `Not_Empty`. -/
def NotEmpty (self : Database) : Prop := 0 < self.count ∨ self.signal = true

instance (self : Database) : Decidable self.NotEmpty := inferInstanceAs (Decidable (_ ∨ _))

/-- `Not_Empty`. -/
def notEmpty (self : Database) : Database := { self with signal := false }

/-- `Register`, with the objects whose activity has timed out. -/
def register (config : RegistryConfig) (id : Nat) (timedOut : Nat → Bool) (closing : Octets)
    (raises : Bool) : Protected Bool := do
  let self ← get
  if self.registered.card = config.maxWebSocket then
    match (ascending self.registered).find? timedOut with
    | none => pure false
    | some victim =>
        closeSocket victim closing raises
        insertNew
  else
    insertNew
where
  /-- `Registered.Insert`. -/
  insertNew : Protected Bool := do
    if id ∈ (← get).registered then
      throw .constraintError
    modify fun self => { self with registered := insert id self.registered }
    pure true

/-- The first object in the queue that no task is sending for and that has messages. -/
def firstReady (self : Database) : List Nat → Except Exn (Option Nat)
  | [] => .ok none
  | id :: ids =>
      if id ∈ self.sending then self.firstReady ids
      else if id ∉ self.registered then .error .constraintError
      else if (self.member id).messages ≠ [] then .ok (some id)
      else self.firstReady ids

/-- `Get_Socket`; no object means that the call is requeued. -/
def getSocket : Protected (Option Nat) := fun self =>
  match self.firstReady self.pending with
  | .error exn => .error exn self
  | .ok (some id) =>
      .ok (some id)
        { self with pending := self.pending.erase id, sending := insert id self.sending }
  | .ok none => .ok none { self with newPending := false }

/-- Queue what is in the memory socket. -/
def enqueue (self : Database) (id : Nat) : Database :=
  { self.onMember id fun member =>
      { member with messages := member.messages ++ member.memSock.toList, memSock := none } with
    pending := self.pending ++ [id]
    newPending := true }

/-- Set `In_Mem`. -/
def setInMem (id : Nat) (value : Bool) : Protected Unit :=
  modify fun self => self.onMember id ({ · with inMem := value })

/-- `Send` to the object with an identifier, with the octets of the frame. -/
def sendId (id : Nat) (frame : Octets) (interrupted : Option Nat) (closing : Octets) :
    Protected Unit := do
  if id ∈ (← get).registered then
    try sendOn id frame interrupted
    catch _ => modify fun self => self.abandon id closing
  else
    throw .socketError

/-- `Send` on one object, with the octets of the frame. -/
def sendSocket (id : Nat) (frame : Octets) (interrupted : Option Nat) (asynchronous : Bool) :
    Protected Unit := do
  if asynchronous then
    setInMem id true
    sendOn id frame interrupted
    setInMem id false
    modify fun self => self.enqueue id
  else
    sendOn id frame interrupted

/-- `Initialize_Recipients` at one registered object: whether it is a recipient that is sent to. -/
def initializeRecipient (frame : Nat → Octets) (interrupted : Nat → Option Nat)
    (asynchronous : Bool) (id : Nat) : Protected Bool := do
  modify fun self => self.onMember id ({ · with memSock := some [] })
  setInMem id true
  sendOn id (frame id) (interrupted id)
  setInMem id false
  if asynchronous = true ∨ id ∈ (← get).sending then
    modify fun self => self.enqueue id
    pure false
  else
    pure true

/-- `Initialize_Recipients` at a list of registered objects that match: the recipients that are sent
to. -/
def initializeRecipients (frame : Nat → Octets) (interrupted : Nat → Option Nat)
    (asynchronous : Bool) : List Nat → Protected (List Nat)
  | [] => pure []
  | id :: ids => do
      let chosen ← initializeRecipient frame interrupted asynchronous id
      let recipients ← initializeRecipients frame interrupted asynchronous ids
      pure (if chosen then id :: recipients else recipients)

/-- The objects that `Send` to all that match is about. -/
def matched (self : Database) (matching : Nat → Bool) : List Nat :=
  (ascending self.registered).filter matching

/-! ## What the operations leave unchanged -/

section Frames

variable (self : Database) (id : Nat) (change : Member → Member) (closing : Octets)

@[simp] theorem onMember_registered : (self.onMember id change).registered = self.registered := rfl

@[simp] theorem onMember_sending : (self.onMember id change).sending = self.sending := rfl

@[simp] theorem onMember_pending : (self.onMember id change).pending = self.pending := rfl

@[simp]
theorem onMember_self : (self.onMember id change).member id = change (self.member id) :=
  Function.update_self _ _ _

@[simp]
theorem onMember_onMember (later : Member → Member) :
    (self.onMember id change).onMember id later =
      self.onMember id fun member => later (change member) := by
  simp only [onMember, Function.update_self, Function.update_idem]

theorem onMember_ne {other : Nat} (different : other ≠ id) :
    (self.onMember id change).member other = self.member other :=
  Function.update_of_ne different _ _

theorem enqueue_member : (self.enqueue id).member = (self.onMember id fun member =>
    { member with messages := member.messages ++ member.memSock.toList, memSock := none }).member :=
  rfl

theorem releaseSocket_member : (self.releaseSocket id).member = self.member := rfl

@[simp]
theorem remove_registered : (self.remove id).registered = self.registered := by
  rw [remove]
  split_ifs <;> rfl

@[simp]
theorem remove_sending : (self.remove id).sending = self.sending := by
  rw [remove]
  split_ifs <;> rfl

@[simp]
theorem remove_pending : (self.remove id).pending = self.pending := by
  rw [remove]
  split_ifs <;> rfl

@[simp]
theorem remove_member : (self.remove id).member = self.member := by
  rw [remove]
  split_ifs <;> rfl

@[simp]
theorem unregister_registered : (self.unregister id).registered = self.registered.erase id :=
  remove_registered _ _

@[simp]
theorem unregister_sending : (self.unregister id).sending = self.sending.erase id :=
  remove_sending _ _

@[simp]
theorem unregister_pending : (self.unregister id).pending = self.pending :=
  remove_pending _ _

@[simp]
theorem unregister_member : (self.unregister id).member = self.member :=
  remove_member _ _

@[simp]
theorem abandon_registered : (self.abandon id closing).registered = self.registered.erase id :=
  unregister_registered _ _

theorem abandon_ne {other : Nat} (different : other ≠ id) :
    (self.abandon id closing).member other = self.member other := by
  rw [abandon, onMember_ne _ _ _ different, unregister_member]

@[simp]
theorem abandon_network :
    ((self.abandon id closing).member id).network = (self.member id).network ++ closing := by
  rw [abandon, onMember_self, unregister_member]
  rfl

end Frames

end Database
end WebSocket
end AdaWebServer

import AdaWebServer.WebSocket.Recipients

/-!
# The registry and its tasks

All tasks share the database and call its protected operations one at a time.  While a message is
sent to recipients the database is not available to other calls.  The tasks that send what has been
queued take an object out of the database, and write to it without holding the database.
-/

namespace AdaWebServer
namespace WebSocket

open Http2 (Octets Exn)

/-- The frame that `Send` of a message writes. -/
def Member.frame (self : Member) (mask : MaskingKey) (message : Octets) (isBinary : Bool) :
    Octets :=
  let mask := if self.isClientSide then some mask else none
  sendFrameHeader (dataOpcode (if isBinary then .binary else .text)) message.length mask ++
    sendPayload message mask

/-- A `Message_Sender` task. -/
inductive Sender where
  /-- It waits for an object. -/
  | waiting
  /-- It has got an object. -/
  | taken (id : Nat)
  /-- It sends the first message of an object, in parts of a size. -/
  | sending (id : Nat) (chunkSize : Nat)
  /-- An exception has ended it. -/
  | terminated

/-- The registry: the identifiers that have been given out, the message that is being sent to
recipients, and the tasks. -/
structure Registry where
  database : Database := {}
  issued : Nat := 0
  delivery : Option Delivery := none
  senders : Nat → Sender := fun _ => .waiting

/-- The calls that only concern the database and the objects. -/
inductive Call where
  | watch (id : Nat)
  | remove (id : Nat)
  | unregister (id : Nat)
  | notEmpty
  | close (id : Nat) (closing : Octets) (raises : Bool)
  | closeId (id : Nat) (closing : Octets)
  | closeMatching (matching : Nat → Bool) (closing : Nat → Octets)
  /-- It takes no notice of `Asynchronous`. -/
  | sendId (id : Nat) (message : Octets) (mask : MaskingKey) (interrupted : Option Nat)
      (asynchronous : Bool) (closing : Octets)
  | sendSocket (id : Nat) (message : Octets) (isBinary : Bool) (mask : MaskingKey)
      (interrupted : Option Nat) (asynchronous : Bool)

/-- What happens in the registry. -/
inductive Event where
  /-- An object is created. -/
  | create (isClientSide : Bool) (fd : Int)
  /-- An object is created and registered. -/
  | register (isClientSide : Bool) (fd : Int) (timedOut : Nat → Bool) (closing : Octets)
      (raises : Bool)
  /-- A call. -/
  | call (call : Call)
  /-- A message is sent to all objects that match. -/
  | broadcast (matching : Nat → Bool) (message : Octets) (mask : Nat → MaskingKey)
      (interrupted : Nat → Option Nat) (asynchronous : Bool)
  /-- The message is sent on to its recipients. -/
  | progress (progress : Progress)
  /-- A task gets an object. -/
  | getSocket (task : Nat)
  /-- A task drops messages that are too old, and starts to send the first one that is left. -/
  | begin (task : Nat) (outputSpace : Option Nat)
  /-- A task writes a part of the message. -/
  | write (task : Nat) (written : Written)
  /-- A task has sent the message. -/
  | finish (task : Nat)

/-- Perform a call. -/
def Call.perform : Call → Protected Unit
  | .watch id => modify (·.watch id)
  | .remove id => modify (·.remove id)
  | .unregister id => modify (·.unregister id)
  | .notEmpty => modify Database.notEmpty
  | .close id closing raises => Database.closeSocket id closing raises
  | .closeId id closing => Database.closeId id closing
  | .closeMatching matching closing => modify (Database.closeMatching matching closing)
  | .sendId id message mask interrupted _ closing => do
      let self ← get
      Database.sendId id ((self.member id).frame mask message false) interrupted closing
  | .sendSocket id message isBinary mask interrupted asynchronous => do
      let self ← get
      Database.sendSocket id ((self.member id).frame mask message isBinary) interrupted asynchronous

/-- The calls that are possible: `Not_Empty` has a barrier, and some calls concern objects that exist. -/
def Call.Possible (registry : Registry) : Call → Prop
  | .notEmpty => registry.database.NotEmpty
  | .close id _ _ => id ≤ registry.issued
  | .sendSocket id _ _ _ _ _ => id ≤ registry.issued
  | _ => True

instance (registry : Registry) (call : Call) : Decidable (call.Possible registry) := by
  unfold Call.Possible
  match call with
  | .watch _ | .remove _ | .unregister _ | .notEmpty | .close _ _ _ | .closeId _ _
  | .closeMatching _ _ | .sendId _ _ _ _ _ _ | .sendSocket _ _ _ _ _ _ => infer_instance

/-- The state that an operation leaves, and its result. -/
def outcome {α : Type} : EStateM.Result Exn Database α → Option α × Database
  | .ok result database => (some result, database)
  | .error _ database => (none, database)

namespace Registry

/-- The frames of a message to all objects. -/
def frames (self : Registry) (message : Octets) (mask : Nat → MaskingKey) (id : Nat) : Octets :=
  (self.database.member id).frame (mask id) message false

/-- A new object. -/
def created (self : Registry) (isClientSide : Bool) (fd : Int) : Registry :=
  { self with
    issued := self.issued + 1
    database := self.database.onMember (self.issued + 1) fun _ => { isClientSide, fd } }

/-- The first message of an object. -/
def firstMessage (self : Registry) (id : Nat) : Option Octets :=
  (self.database.member id).messages.head?

/-- What is possible. -/
def Possible (self : Registry) : Event → Prop
  | .create _ _ => True
  | .register _ _ _ _ _ => self.delivery.isNone
  | .call call => self.delivery.isNone ∧ call.Possible self
  | .broadcast _ _ _ _ _ => self.delivery.isNone
  | .progress progress =>
      match self.delivery with
      | some delivery => Transmission.Possible ⟨self.database, delivery⟩ progress
      | none => False
  | .getSocket task =>
      match self.senders task with
      | .waiting => self.delivery.isNone ∧ self.database.newPending = true
      | _ => False
  | .begin task _ =>
      match self.senders task with
      | .taken _ => True
      | _ => False
  | .write task written =>
      match self.senders task with
      | .sending id chunkSize =>
          match self.firstMessage id, written with
          | some message, .accepted last =>
              message ≠ [] ∧ last ≤ min chunkSize message.length
          | some message, .raised => message ≠ [] ∧ self.delivery.isNone
          | none, _ => False
      | _ => False
  | .finish task =>
      match self.senders task with
      | .sending id _ => self.delivery.isNone ∧ self.firstMessage id = some []
      | _ => False

instance (self : Registry) (event : Event) : Decidable (self.Possible event) := by
  unfold Possible
  match event with
  | .progress _ =>
      dsimp only
      match self.delivery with
      | some _ | none => infer_instance
  | .getSocket task | .begin task _ | .finish task =>
      dsimp only
      match self.senders task with
      | .waiting | .taken _ | .sending _ _ | .terminated => infer_instance
  | .write task written =>
      dsimp only
      match self.senders task with
      | .sending id _ =>
          dsimp only
          match self.firstMessage id, written with
          | some _, .accepted _ | some _, .raised | none, _ => infer_instance
      | .waiting | .taken _ | .terminated => infer_instance
  | .create _ _ | .register _ _ _ _ _ | .call _ | .broadcast _ _ _ _ _ => infer_instance

/-- A part of the first message of an object is written. -/
def writePart (self : Registry) (task id chunkSize : Nat) (written : Written) : Registry :=
  match (self.database.member id).messages with
  | [] => { self with senders := Function.update self.senders task .terminated }
  | message :: messages =>
      let chunk := min chunkSize message.length
      let taken := self.database.onMember id
        ({ · with messages := message.drop chunk :: messages })
      match written with
      | .accepted last =>
          { self with database := taken.onMember id (·.sendPart (message.take chunk) last) }
      | .raised => { self with database := taken.abandon id [] }

/-- What happens. -/
def step (config : RegistryConfig) (self : Registry) : Event → Registry
  | .create isClientSide fd => self.created isClientSide fd
  | .register isClientSide fd timedOut closing raises =>
      let self := self.created isClientSide fd
      { self with
        database :=
          (outcome (Database.register config self.issued timedOut closing raises self.database)).2 }
  | .call call =>
      { self with database := (outcome (call.perform self.database)).2 }
  | .broadcast matching message mask interrupted asynchronous =>
      let frame := self.frames message mask
      let (delivery, database) :=
        outcome (Database.broadcast matching frame interrupted asynchronous self.database)
      { self with
        database
        delivery := delivery.filter fun delivery => !delivery.finished }
  | .progress progress =>
      match self.delivery with
      | none => self
      | some delivery =>
          let next := Transmission.step ⟨self.database, delivery⟩ progress
          { self with
            database := next.database
            delivery := if next.delivery.finished then none else some next.delivery }
  | .getSocket task =>
      match Database.getSocket self.database with
      | .ok (some id) database =>
          { self with database, senders := Function.update self.senders task (.taken id) }
      | .ok none database => { self with database }
      | .error _ database =>
          { self with database, senders := Function.update self.senders task .terminated }
  | .begin task outputSpace =>
      match self.senders task with
      | .taken id =>
          let database := self.database.onMember id fun member =>
            { member with
              messages := member.messages.drop (member.messages.length - config.messageQueueSize) }
          { self with
            database
            senders := Function.update self.senders task
              (if (database.member id).messages = [] then .terminated
              else .sending id (outputSpace.elim maxStackSize (min maxStackSize))) }
      | _ => self
  | .write task written =>
      match self.senders task with
      | .sending id chunkSize => self.writePart task id chunkSize written
      | _ => self
  | .finish task =>
      match self.senders task with
      | .sending id _ =>
          { self with
            database := (self.database.onMember id fun member =>
              { member with messages := member.messages.tail }).releaseSocket id
            senders := Function.update self.senders task .waiting }
      | _ => self

/-- The steps of the registry. -/
def Steps (config : RegistryConfig) : Registry → Event → Registry → Prop :=
  Execution.Performs Possible (step config)

end Registry
end WebSocket
end AdaWebServer

import AdaWebServer.Foundations.Execution
import AdaWebServer.Net.PollEvents
import AdaWebServer.WebSocket.Database

/-!
# Sending a message to the recipients

`Send_To_Recipients` waits for the sockets of the recipients and writes to those that are ready a
part of what their memory socket holds.  A socket that is done or has failed is removed from the poll
set, and the array of the recipients is compacted with it.
-/

namespace AdaWebServer
namespace WebSocket

open Http2 (Octets Exn)
open Net (PollSet EventsType WaitEventSet)

/-- `Max_Stack_Size`. -/
def maxStackSize : Nat := 100 * 1024

/-- The local state of `Send_To_Recipients`, and which recipients have failed. -/
structure Delivery where
  set : PollSet
  socks : Nat → Option Nat
  sockIndex : Nat := 1
  /-- The turns that are left of the loop over the sockets that are ready. -/
  turns : Nat := 0
  finished : Bool := false
  failed : List Nat := []

/-- What the socket does with a part that is written to it. -/
inductive Written where
  /-- It takes the first octets. -/
  | accepted (last : Nat)
  /-- It raises an exception. -/
  | raised

/-- `Wait_Events`. -/
def outputMode : WaitEventSet
  | .input => false
  | .output => true

namespace Member

/-- `Send` of a part of the octets. -/
def sendPart (self : Member) (data : Octets) (last : Nat) : Member :=
  if self.inMem then
    { self with memSock := self.memSock.map (· ++ data) }
  else
    { self with network := self.network ++ data.take last }

/-- The octets that are written at once. -/
def chunkSize (outputSpace : Option Nat) (pending : Nat) : Nat :=
  min (outputSpace.elim maxStackSize (min maxStackSize)) pending

end Member

namespace Delivery

/-- The sockets of the recipients are added to the poll set, in their order. -/
def addAll (database : Database) : List Nat → PollSet → Except Exn PollSet
  | [], set => .ok set
  | id :: ids, set => do
      let set ← set.add (database.member id).fd outputMode
      addAll database ids set

/-- The start of `Send_To_Recipients`. -/
def start (database : Database) (recipients : List Nat) : Except Exn Delivery := do
  let set ← addAll database recipients (PollSet.ofSize recipients.length)
  pure { set, socks := fun position => if position = 0 then none else recipients[position - 1]? }

/-- The recipients at the positions of the poll set. -/
def remaining (self : Delivery) : List Nat :=
  (List.range self.set.length).filterMap fun position => self.socks (position + 1)

/-- `Wait` returns with events. -/
def poll (self : Delivery) (polled : Nat → EventsType) : Delivery :=
  let (set, count) := self.set.wait polled
  { self with set, sockIndex := 1, turns := count }

/-- `Wait` returns without events: the recipients that are left are unregistered, but for those for
which the callback answers `None`. -/
def timeout (database : Database) (self : Delivery) (kept : Nat → Bool) : Database × Delivery :=
  (self.remaining.foldl
      (fun database id => if kept id then database else database.unregister id) database,
    { self with finished := true, failed := self.failed ++ self.remaining })

/-- The socket at the position is removed, and the last one takes its place. -/
def compact (self : Delivery) (index : Nat) : Delivery :=
  match self.set.remove index with
  | .error _ => { self with finished := true }
  | .ok set =>
      { self with
        set
        socks :=
          if index ≠ self.set.length then
            Function.update self.socks index (self.socks self.set.length)
          else self.socks
        sockIndex := index }

/-- One turn is over; the last one ends the loop if no socket is left. -/
def endTurn (self : Delivery) : Delivery :=
  { self with
    turns := self.turns - 1
    finished := self.finished || (decide (self.turns - 1 = 0) && decide (self.set.length = 0)) }

/-- One turn of the loop over the sockets that are ready. -/
def turn (database : Database) (self : Delivery) (outputSpace : Option Nat) (written : Written)
    (closing : Octets) : Database × Delivery :=
  let index := self.set.next self.sockIndex
  match self.socks index with
  | none => (database, { self with finished := true })
  | some id =>
      match (database.member id).memSock with
      | none => (database, { self with finished := true })
      | some memory =>
          let chunk := Member.chunkSize outputSpace memory.length
          let received := database.onMember id ({ · with memSock := some (memory.drop chunk) })
          let last : Option Nat :=
            if chunk = 0 then some 0
            else
              match written with
              | .accepted last => some last
              | .raised => none
          match last with
          | none =>
              (received.abandon id closing,
                { { self with socks := Function.update self.socks index none }.compact index with
                  failed := self.failed ++ [id] }.endTurn)
          | some last =>
              let sent := received.onMember id (·.sendPart (memory.take chunk) last)
              if memory.length - last = 0 then
                (sent.onMember id ({ · with memSock := none }), (self.compact index).endTurn)
              else
                (sent, { self with sockIndex := index + 1 }.endTurn)

end Delivery

/-- The objects that `Send_To_Recipients` is called for: no task is sending for them. -/
def Database.recipients (self : Database) (matching : Nat → Bool) : List Nat :=
  (self.matched matching).filter fun id => id ∉ self.sending

/-- `Send` to all objects that match, up to the first wait for the recipients; without recipients the
delivery is over. -/
def Database.broadcast (matching : Nat → Bool) (frame : Nat → Octets)
    (interrupted : Nat → Option Nat) (asynchronous : Bool) : Protected Delivery := do
  let matched := (← get).matched matching
  let recipients ← initializeRecipients frame interrupted asynchronous matched
  if recipients = [] then
    pure { set := PollSet.ofSize 0, socks := fun _ => none, finished := true }
  else
    match Delivery.start (← get) recipients with
    | .ok delivery => pure delivery
    | .error exn => throw exn

/-! ## The steps -/

/-- A database and a delivery in progress. -/
structure Transmission where
  database : Database
  delivery : Delivery

/-- What may happen while a message is sent to the recipients. -/
inductive Progress where
  /-- `Wait` returns with events. -/
  | poll (polled : Nat → EventsType)
  /-- `Wait` returns without events. -/
  | timeout (kept : Nat → Bool)
  /-- The next socket that is ready is written to. -/
  | turn (outputSpace : Option Nat) (written : Written) (closing : Octets)

namespace Transmission

/-- The size of the part that is written next. -/
def chunk (self : Transmission) (outputSpace : Option Nat) : Nat :=
  match self.delivery.socks (self.delivery.set.next self.delivery.sockIndex) with
  | none => 0
  | some id =>
      (self.database.member id).memSock.elim 0 fun memory =>
        Member.chunkSize outputSpace memory.length

/-- What is possible: to wait between the rounds of turns, and then as many turns as there are
sockets with events.  A socket accepts at most what is written to it. -/
def Possible (self : Transmission) : Progress → Prop
  | .poll polled =>
      self.delivery.finished = false ∧ self.delivery.turns = 0 ∧
        0 < (self.delivery.set.wait polled).2
  | .timeout _ => self.delivery.finished = false ∧ self.delivery.turns = 0
  | .turn outputSpace (.accepted last) _ =>
      self.delivery.finished = false ∧ 0 < self.delivery.turns ∧ last ≤ self.chunk outputSpace
  | .turn _ .raised _ => self.delivery.finished = false ∧ 0 < self.delivery.turns

instance (self : Transmission) (progress : Progress) : Decidable (self.Possible progress) := by
  unfold Possible
  match progress with
  | .poll _ | .timeout _ | .turn _ (.accepted _) _ | .turn _ .raised _ => infer_instance

/-- What happens. -/
def step (self : Transmission) : Progress → Transmission
  | .poll polled => { self with delivery := self.delivery.poll polled }
  | .timeout kept =>
      let (database, delivery) := self.delivery.timeout self.database kept
      { database, delivery }
  | .turn outputSpace written closing =>
      let (database, delivery) := self.delivery.turn self.database outputSpace written closing
      { database, delivery }

/-- The steps of `Send_To_Recipients`. -/
def Steps : Transmission → Progress → Transmission → Prop := Execution.Performs Possible step

end Transmission
end WebSocket
end AdaWebServer

import AdaWebServer.Net.PollEvents

/-!
# Generic sets of sockets

A set keeps its sockets with their data in an array of its own, at the positions of the entries of
the poll set.  Both are allocated when the first socket is added.
-/

namespace AdaWebServer
namespace Net

open Http2 (Exn)
open Slots

/-- `Socket_Record`.  What has not been written yet is missing. -/
structure SocketRecord (σ δ : Type) where
  socket : Option σ := none
  allocated : Bool := false
  data : Option δ := none

/-- `Socket_Array`. -/
structure SocketArray (σ δ : Type) where
  size : Nat
  record : Nat → SocketRecord σ δ := fun _ => {}

/-- The poll set and the array of sockets. -/
structure Contents (σ δ : Type) where
  poll : PollSet
  set : SocketArray σ δ
  /-- `Poll` is the address of a set that has been freed. -/
  dangling : Bool := false

/-- `Socket_Set_Type`, empty until the first socket is added. -/
abbrev SocketSet (σ δ : Type) := Option (Contents σ δ)

/-- An operation on a set of sockets. -/
abbrev SetAction (σ δ α : Type) := EStateM Exn (SocketSet σ δ) α

variable {σ δ : Type}

namespace SocketArray

/-- The index check. -/
def InRange (self : SocketArray σ δ) (index : Nat) : Prop := 0 < index ∧ index ≤ self.size

instance (self : SocketArray σ δ) (index : Nat) : Decidable (self.InRange index) :=
  inferInstanceAs (Decidable (_ ∧ _))

/-- Change the record at a position. -/
def modifyAt (self : SocketArray σ δ) (index : Nat)
    (change : SocketRecord σ δ → SocketRecord σ δ) : SocketArray σ δ :=
  { self with record := Function.update self.record index (change (self.record index)) }

/-- The array with room for a position: a copy of the size of the poll set, if it is too short. -/
def grow (self : SocketArray σ δ) (length pollSize : Nat) : SocketArray σ δ :=
  if self.size < length then
    { size := pollSize
      record := fun index => if 0 < index ∧ index ≤ self.size then self.record index else {} }
  else self

/-- Move the last record to a position, and do not leave the socket accessible. -/
def compact (self : SocketArray σ δ) (index last : Nat) : SocketArray σ δ :=
  let moved := if index < last then moveTo self.record index last else self.record
  { self with
    record := Function.update moved last
      { moved last with socket := none, allocated := false } }

end SocketArray

namespace SocketSet

/-- `Count`. -/
def count : SocketSet σ δ → Nat
  | none => 0
  | some contents => contents.poll.length

/-- The record at a position. -/
def record : SocketSet σ δ → Nat → SocketRecord σ δ
  | none, _ => {}
  | some contents, index => contents.set.record index

/-- The entry of the poll set at a position. -/
def entry : SocketSet σ δ → Nat → Pollfd
  | none, _ => {}
  | some contents, index => contents.poll.fds index

/-- `In_Range`. -/
def InRange (set : SocketSet σ δ) (index : Nat) : Prop :=
  0 < index ∧ index ≤ set.count ∧ (set.record index).socket.isSome = true

instance (set : SocketSet σ δ) (index : Nat) : Decidable (set.InRange index) :=
  inferInstanceAs (Decidable (_ ∧ _))

/-- `Get_Socket`. -/
def getSocket (set : SocketSet σ δ) (index : Nat) : Option σ := (set.record index).socket

/-- `Get_Data`. -/
def getData (set : SocketSet σ δ) (index : Nat) : Option δ := (set.record index).data

/-- The poll set has been freed. -/
def Dangling : SocketSet σ δ → Prop
  | none => False
  | some contents => contents.dangling = true

/-- There is room in the poll set, or none has been allocated yet. -/
def HasRoom : SocketSet σ δ → Prop
  | none => True
  | some contents => contents.poll.length < contents.poll.size

instance (set : SocketSet σ δ) : Decidable set.HasRoom :=
  match set with
  | none => isTrue trivial
  | some contents => inferInstanceAs (Decidable (contents.poll.length < contents.poll.size))

/-- What the poll set reports for a position. -/
def status : SocketSet σ δ → Nat → Except Exn EventSet
  | none, _ => .error .constraintError
  | some contents, index => contents.poll.status index

section

variable (getFd : σ → Int)

/-- `Add_Private`. -/
def addPrivate (socket : σ) (mode : WaitEventSet) : SetAction σ δ Nat
  | none =>
      match PollSet.toFdSet (getFd socket) mode 4 with
      | .error exn => .error exn none
      | .ok poll =>
          let set : SocketArray σ δ := { size := poll.size }
          .ok 1 (some { poll, set := set.modifyAt 1 ({ · with socket }) })
  | some contents =>
      match contents.poll.grow.add (getFd socket) mode with
      | .error exn =>
          -- `Net.Add` has freed a full set, and the exception keeps it from returning the copy.
          let freed := decide (contents.poll.length = contents.poll.size)
          .error exn (some { contents with dangling := contents.dangling || freed })
      | .ok poll =>
          let set := contents.set.grow poll.length poll.size
          .ok poll.length
            (some { contents with poll, set := set.modifyAt poll.length ({ · with socket }) })

/-- Complete the record of a socket that has been added. -/
def setRecord (index : Nat) (allocated : Bool) (data : Option δ) : SetAction σ δ Unit :=
  modify fun set => set.map fun contents =>
    { contents with set := contents.set.modifyAt index fun record =>
        { record with allocated, data := data.or record.data } }

/-- `Add`, of a socket that is allocated in the set or not, with data or without. -/
def add (socket : σ) (allocated : Bool) (data : Option δ) (mode : WaitEventSet) :
    SetAction σ δ Unit := do
  let length ← addPrivate getFd socket mode
  setRecord length allocated data

/-- `Remove_Socket`, with the socket and the data that it returns. -/
def removeSocket (index : Nat) : SetAction σ δ (Option σ × Option δ)
  | none => .error .constraintError none
  | some contents =>
      if contents.set.InRange index then
        let removed := contents.set.record index
        match contents.poll.remove index with
        | .error exn => .error exn (some contents)
        | .ok poll =>
            .ok (removed.socket, removed.data)
              (some { contents with poll, set := contents.set.compact index contents.poll.length })
      else .error .constraintError (some contents)

/-- The loop of `Reset` from a position down. -/
def resetFrom : Nat → Contents σ δ → Except Exn (Contents σ δ)
  | 0, contents => .ok contents
  | index + 1, contents => do
      let set :=
        if (contents.set.record (index + 1)).allocated then
          contents.set.modifyAt (index + 1) ({ · with socket := none })
        else contents.set
      let poll ← contents.poll.remove (index + 1)
      resetFrom index { contents with poll, set }

/-- `Reset`. -/
def reset : SetAction σ δ Unit
  | none => .ok () none
  | some contents =>
      match resetFrom contents.poll.length contents with
      | .ok contents => .ok () (some contents)
      | .error exn => .error exn (some contents)

/-- Change the record at a position. -/
def changeRecord (index : Nat) (change : SocketRecord σ δ → SocketRecord σ δ) : SetAction σ δ Unit
  | none => .error .constraintError none
  | some contents =>
      if contents.set.InRange index then
        .ok () (some { contents with set := contents.set.modifyAt index change })
      else .error .constraintError (some contents)

/-- Change the poll set. -/
def changePoll (change : PollSet → Except Exn PollSet) : SetAction σ δ Unit
  | none => .error .constraintError none
  | some contents =>
      match change contents.poll with
      | .ok poll => .ok () (some { contents with poll })
      | .error exn => .error exn (some contents)

/-- `Set_Data`. -/
def setData (index : Nat) (data : δ) : SetAction σ δ Unit :=
  changeRecord index ({ · with data := some data })

/-- `Set_Event`. -/
def setEvent (index : Nat) (event : WaitEventType) (value : Bool) : SetAction σ δ Unit :=
  changePoll (·.setEvent index event value)

/-- `Set_Mode`. -/
def setMode (index : Nat) (mode : WaitEventSet) : SetAction σ δ Unit :=
  changePoll (·.setMode index mode)

/-- `Update_Socket`, with what `Process` makes of the socket and the data. -/
def updateSocket (index : Nat) (process : σ × Option δ → σ × Option δ) : SetAction σ δ Unit := do
  let set ← get
  match set.getSocket index with
  | none => throw .constraintError
  | some socket =>
      let after := process (socket, set.getData index)
      changeRecord index ({ · with socket := some after.1, data := after.2 })
      changePoll (·.replace index (getFd after.1))

end

/-- `Wait`, with what the system reports for each position: the number of entries with events. -/
def wait (polled : Nat → EventsType) : SetAction σ δ Nat
  | none => .ok 0 none
  | some contents =>
      let (poll, count) := contents.poll.wait polled
      .ok count (some { contents with poll })

end SocketSet
end Net
end AdaWebServer

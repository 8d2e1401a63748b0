import AdaWebServer.Net.Occupancy

/-!
# Acceptors

`Get` scans the sockets of the set from `Index` to `Last`, then waits, then takes the sockets of the
give-back box into the set.  One call at a time holds the semaphore; sockets are given back at any
moment.
-/

namespace AdaWebServer
namespace Net

open Http2 (naturalLast)
open Execution Slots

variable {σ δ : Type} [DecidableEq σ]

/-- `Socket_Data_Type`. -/
structure SocketData (δ : Type) where
  time : Int
  data : δ
  first : Bool

/-- What an acceptor is set up with, and what it asks of a socket. -/
structure AcceptorConfig (σ δ : Type) where
  getFd : σ → Int
  isListening : σ → Bool
  noData : δ
  timeout : Int
  firstTimeout : Int
  forceTimeout : Int
  forceFirstTimeout : Int
  forceLength : Nat
  closeLength : Nat
  backQueueSize : Nat

/-- A pass of the loop `Read_Ready`: the timeouts, and what it has found so far. -/
structure Pass (σ : Type) where
  first : Int
  notFirst : Int
  waitTimeout : Int
  oldestIdx : Nat := 0
  examined : List (σ × Int) := []

/-- Where a call of `Get` is. -/
inductive Phase (σ : Type) where
  /-- At the head of the loop. -/
  | begin
  /-- In the loop `Read_Ready`. -/
  | readReady (pass : Pass σ)
  /-- In the loop that waits and closes. -/
  | waiting
  /-- At the start of `Add_Sockets`. -/
  | addSockets
  /-- In the loop of `Add_Sockets`, with the number of octets left. -/
  | adding (bytes : Nat)

instance (phase : Phase σ) : Decidable (phase = .begin) :=
  match phase with
  | .begin => isTrue rfl
  | .readReady _ | .waiting | .addSockets | .adding _ => isFalse nofun

instance (phase : Phase σ) : Decidable (phase = .waiting) :=
  match phase with
  | .waiting => isTrue rfl
  | .begin | .readReady _ | .addSockets | .adding _ => isFalse nofun

instance (phase : Phase σ) : Decidable (phase = .addSockets) :=
  match phase with
  | .addSockets => isTrue rfl
  | .begin | .readReady _ | .waiting | .adding _ => isFalse nofun

instance (phase : Phase σ) : Decidable (∃ pass, phase = .readReady pass) :=
  match phase with
  | .readReady pass => isTrue ⟨pass, rfl⟩
  | .begin | .waiting | .addSockets | .adding _ => isFalse nofun

instance (phase : Phase σ) (possible : Nat → Prop) [DecidablePred possible] :
    Decidable (∃ bytes, phase = .adding bytes ∧ possible bytes) :=
  match phase with
  | .adding bytes =>
      decidable_of_iff (possible bytes)
        ⟨fun holds => ⟨bytes, rfl, holds⟩, fun ⟨_, same, holds⟩ => by cases same; exact holds⟩
  | .begin | .readReady _ | .waiting | .addSockets => isFalse fun ⟨_, same, _⟩ => nomatch same

/-- A call of `Get`. -/
structure GetCall (σ : Type) where
  hasOnError : Bool
  toClose : List σ := []
  tooManyFD : Bool := false
  phase : Phase σ := .begin

/-- `Acceptor_Type`, the call of `Get` that holds the semaphore, and the accounts of the sockets that
have been handed to the acceptor, that callers hold, and that were left to be closed. -/
structure Acceptor (σ δ : Type) where
  set : Tracked σ (SocketData δ) := {}
  index : Nat
  last : Nat
  isOpen : Bool := true
  box : List (σ × δ) := []
  signal : Nat := 0
  call : Option (GetCall σ) := none
  handed : Multiset σ
  returned : Multiset σ := 0
  closed : Multiset σ := 0

/-- `Input`. -/
def inputMode : WaitEventSet
  | .input => true
  | .output => false

namespace Acceptor

variable (config : AcceptorConfig σ δ)

/-- One operation on the set. -/
def onSet (self : Acceptor σ δ) (operation : SetOperation σ (SocketData δ)) : Acceptor σ δ :=
  { self with set := self.set.step config.getFd operation }

/-- The acceptor after `Listen`. -/
def listen (signal server : σ) : Acceptor σ δ :=
  let set : Tracked σ (SocketData δ) :=
    (Tracked.step config.getFd {} (.add signal false none inputMode)).step config.getFd
      (.add server false none inputMode)
  { set
    last := set.set.count
    index := set.set.count + 1
    handed := {signal, server} }

/-- `Get` raises an exception: the caller closes the sockets of the list. -/
def raised (self : Acceptor σ δ) (call : GetCall σ) : Acceptor σ δ :=
  { self with call := none, closed := self.closed + (call.toClose : Multiset σ) }

/-- `Get` returns a socket. -/
def returns (self : Acceptor σ δ) (call : GetCall σ) (socket : σ) : Acceptor σ δ :=
  { self with
    call := none
    returned := socket ::ₘ self.returned
    closed := self.closed + (call.toClose : Multiset σ) }

/-- `Get` goes on. -/
def goesOn (self : Acceptor σ δ) (call : GetCall σ) : Acceptor σ δ :=
  { self with call := some call }

/-- Remove the socket at the index from the set. -/
def takeOut (self : Acceptor σ δ) (index : Nat) : Acceptor σ δ :=
  { self.onSet config (.removeSocket index) with last := self.last - 1 }

/-- Add a socket to the set. -/
def putIn (self : Acceptor σ δ) (socket : σ) (allocated : Bool) (data : SocketData δ) :
    Acceptor σ δ :=
  self.onSet config (.add socket allocated (some data) inputMode)

/-- The head of the loop. -/
def beginPass (self : Acceptor σ δ) (call : GetCall σ) : Acceptor σ δ :=
  let pass : Pass σ :=
    if config.forceLength < self.set.set.count ∨ call.tooManyFD = true then
      { first := config.forceFirstTimeout, notFirst := config.forceTimeout,
        waitTimeout := config.forceTimeout }
    else
      { first := config.firstTimeout, notFirst := config.timeout, waitTimeout := config.timeout }
  self.goesOn { call with phase := .readReady pass }

/-- `Accept_Listening` at a listening socket, with the socket that `Accept_Socket` returns. -/
def acceptListening (self : Acceptor σ δ) (call : GetCall σ) (events : EventSet) (clock : Int)
    (accepted : Option σ) : Acceptor σ δ :=
  if events.error then self.raised call
  else if events.input then
    match accepted with
    | some socket =>
        { self.putIn config socket true { time := clock, data := config.noData, first := true } with
          index := self.index + 1
          handed := socket ::ₘ self.handed }
    | none =>
        if call.hasOnError then
          { self.goesOn { call with tooManyFD := true } with index := self.index + 1 }
        else self.raised call
  else { self with index := self.index + 1 }

/-- One turn of the loop `Read_Ready` at a socket without events. -/
def checkTimeout (self : Acceptor σ δ) (call : GetCall σ) (pass : Pass σ) (socket : σ)
    (data : SocketData δ) (clock : Int) : Acceptor σ δ :=
  let diff := (if data.first then pass.first else pass.notFirst) - (clock - data.time)
  if diff ≤ 0 then
    (self.takeOut config self.index).goesOn { call with toClose := call.toClose ++ [socket] }
  else
    let pass := { pass with examined := pass.examined ++ [(socket, diff)] }
    let pass :=
      if diff < pass.waitTimeout then
        { pass with waitTimeout := diff, oldestIdx := self.index }
      else pass
    { self.goesOn { call with phase := .readReady pass } with index := self.index + 1 }

/-- One turn of the loop `Read_Ready`. -/
def examine (self : Acceptor σ δ) (call : GetCall σ) (pass : Pass σ) (clock : Int)
    (accepted : Option σ) : Acceptor σ δ :=
  match self.set.set.status self.index, self.set.set.getSocket self.index with
  | .ok events, some socket =>
      if config.isListening socket then
        self.acceptListening config call events clock accepted
      else if events.error then
        (self.takeOut config self.index).goesOn { call with toClose := call.toClose ++ [socket] }
      else if events.input then
        (self.takeOut config self.index).returns call socket
      else
        let data := (self.set.set.getData self.index).getD
          { time := 0, data := config.noData, first := false }
        self.checkTimeout config call pass socket data clock
  | _, _ => self.raised call

/-- The socket that is closed to make room. -/
def oldest (self : Acceptor σ δ) (pass : Pass σ) : Option σ :=
  if 0 < pass.oldestIdx ∧ config.closeLength < self.last then
    self.set.set.getSocket pass.oldestIdx
  else none

/-- The end of the loop `Read_Ready`. -/
def makeRoom (self : Acceptor σ δ) (call : GetCall σ) (pass : Pass σ) : Acceptor σ δ :=
  match self.oldest config pass with
  | some socket =>
      (self.takeOut config pass.oldestIdx).goesOn
        { call with toClose := call.toClose ++ [socket], phase := .waiting }
  | none => self.goesOn { call with phase := .waiting }

/-- One turn of the loop that waits and closes, with what the system reports, if `Wait` does not
raise. -/
def wait (self : Acceptor σ δ) (call : GetCall σ) : Option (Nat → EventsType) → Acceptor σ δ
  | none =>
      if call.hasOnError then self.goesOn { call with tooManyFD := true, phase := .begin }
      else self.raised call
  | some polled =>
      let waited := self.onSet config (.wait polled)
      let active := (List.range self.set.set.count).any fun index => polled (index + 1) ≠ ∅
      match call.toClose with
      | [] =>
          { waited.goesOn { call with phase := .addSockets } with last := waited.set.set.count }
      | socket :: toClose =>
          if active then
            { waited.goesOn { call with phase := .addSockets } with last := waited.set.set.count }
          else
            { waited.goesOn { call with toClose } with closed := socket ::ₘ self.closed }

/-- `Shutdown_Internal`: the sockets are removed from the first position, as many as there are. -/
def drain : Nat → Acceptor σ δ → Acceptor σ δ
  | 0, self => self
  | count + 1, self =>
      let socket := self.set.set.getSocket 1
      drain count
        { self.onSet config (.removeSocket 1) with
          closed := (socket.elim 0 fun socket => {socket}) + self.closed }

/-- `Shutdown` in `Get`. -/
def shutdown (self : Acceptor σ δ) (call : GetCall σ) : Acceptor σ δ :=
  (drain config self.set.set.count self).raised call

/-- The start of `Add_Sockets`, with the number of octets that `Receive` returns, if it does not
raise. -/
def addSockets (self : Acceptor σ δ) (call : GetCall σ) (received : Option Nat) : Acceptor σ δ :=
  match self.set.set.status 1 with
  | .error _ => self.raised call
  | .ok events =>
      if events.error then self.shutdown config call
      else if events.input then
        match received with
        | none => self.shutdown config call
        | some bytes =>
            { self.goesOn { call with phase := .adding bytes } with signal := self.signal - bytes }
      else { self.goesOn { call with phase := .begin } with index := 2 }

/-- One turn of the loop of `Add_Sockets`. -/
def takeBack (self : Acceptor σ δ) (call : GetCall σ) (bytes : Nat) (clock : Int) : Acceptor σ δ :=
  match bytes, self.box with
  | bytes + 1, (socket, data) :: box =>
      { (self.putIn config socket false { time := clock, data, first := false }).goesOn
          { call with phase := .adding bytes } with
        box }
  | _, _ => { self.goesOn { call with phase := .begin } with index := 2 }

/-- `Add` of the give-back box, called by `Give_Back`. -/
def giveBack (self : Acceptor σ δ) (socket : σ) (data : δ) (maxSize : Nat) : Acceptor σ δ :=
  if self.isOpen = true ∧ self.box.length < maxSize then
    { self with
      box := self.box ++ [(socket, data)]
      signal := self.signal + 1
      handed := if socket ∈ self.returned then self.handed else socket ::ₘ self.handed
      returned := self.returned.erase socket }
  else self

end Acceptor

/-! ## The steps -/

/-- What may happen. -/
inductive AcceptorEvent (σ δ : Type) where
  /-- A task calls `Get`. -/
  | get (hasOnError : Bool)
  /-- A task calls `Give_Back`, with the limit of the queue or without. -/
  | giveBack (socket : σ) (data : δ) (limited : Bool)
  /-- `Get` is at the head of its loop. -/
  | beginPass
  /-- `Get` examines the socket at the index. -/
  | examine (clock : Int) (accepted : Option σ)
  /-- `Get` has examined all sockets. -/
  | makeRoom
  /-- `Get` waits. -/
  | wait (polled : Option (Nat → EventsType))
  /-- `Get` reads the signalling socket. -/
  | addSockets (received : Option Nat)
  /-- `Get` takes a socket of the box into the set. -/
  | takeBack (clock : Int)

namespace Acceptor

variable (config : AcceptorConfig σ δ)

/-- The events that are possible.  A socket that is accepted is new and has a descriptor; a socket
that is given back is held by the caller, not by the acceptor, and has a descriptor. -/
def Possible (self : Acceptor σ δ) : AcceptorEvent σ δ → Prop
  | .get _ => self.call = none
  | .giveBack socket _ _ =>
      0 ≤ config.getFd socket ∧ (socket ∈ self.returned ∨ socket ∉ self.handed)
  | .beginPass => ∃ call ∈ self.call, call.phase = .begin
  | .examine _ accepted =>
      (∃ call ∈ self.call, ∃ pass, call.phase = .readReady pass) ∧ self.index ≤ self.last ∧
        ∀ socket ∈ accepted, 0 ≤ config.getFd socket ∧ socket ∉ self.handed
  | .makeRoom =>
      (∃ call ∈ self.call, ∃ pass, call.phase = .readReady pass) ∧ self.last < self.index
  | .wait _ => ∃ call ∈ self.call, call.phase = .waiting
  | .addSockets received =>
      (∃ call ∈ self.call, call.phase = .addSockets) ∧
        ∀ bytes ∈ received, bytes ≤ min 16 self.signal
  | .takeBack _ =>
      ∃ call ∈ self.call, ∃ bytes, call.phase = .adding bytes ∧ (0 < bytes → self.box ≠ [])

instance (self : Acceptor σ δ) (event : AcceptorEvent σ δ) :
    Decidable (self.Possible config event) := by
  cases event <;> unfold Possible <;> infer_instance

/-- What an event does. -/
def step (self : Acceptor σ δ) (event : AcceptorEvent σ δ) : Acceptor σ δ :=
  match event, self.call with
  | .giveBack socket data limited, _ =>
      self.giveBack socket data (if limited then config.backQueueSize else naturalLast)
  | .get hasOnError, none =>
      if self.set.set.count = 0 then self else self.goesOn { hasOnError }
  | .beginPass, some call => self.beginPass config call
  | .examine clock accepted, some call =>
      match call.phase with
      | .readReady pass => self.examine config call pass clock accepted
      | _ => self
  | .makeRoom, some call =>
      match call.phase with
      | .readReady pass => self.makeRoom config call pass
      | _ => self
  | .wait polled, some call => self.wait config call polled
  | .addSockets received, some call => self.addSockets config call received
  | .takeBack clock, some call =>
      match call.phase with
      | .adding bytes => self.takeBack config call bytes clock
      | _ => self
  | _, _ => self

/-- The steps of an acceptor. -/
def Steps : Acceptor σ δ → AcceptorEvent σ δ → Acceptor σ δ → Prop :=
  Performs (Possible config) (step config)

end Acceptor
end Net
end AdaWebServer

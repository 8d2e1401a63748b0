import AdaWebServer.Push.Holder

/-!
# The protected object of a push server

The clients are kept in one table by their identity, and in one more table for each group that has
members.  The holders are reached through accesses.
-/

namespace AdaWebServer
namespace Push

open Http2 (Octets Text)

/-! ## Tables -/

/-- `Tables.Map`, with its nodes in the order in which a cursor goes through them. -/
abbrev Table := AList (fun _ : Text => Nat)

/-- How the nodes are arranged once a node has been inserted, which depends on the hash values. -/
structure Layout where
  arrange : List (Sigma fun _ : Text => Nat) → List (Sigma fun _ : Text => Nat)
  perm : ∀ nodes, (arrange nodes).Perm nodes

/-- The tables into which an operation inserts. -/
inductive Place where
  | container
  | group (name : Text)
  | queue

/-- Where the nodes go that an operation inserts. -/
abbrev Layouts := Place → Layout

/-- The nodes in another arrangement. -/
def Table.arranged (layout : Layout) (table : Table) : Table where
  entries := layout.arrange table.entries
  nodupKeys := (List.perm_nodupKeys (layout.perm table.entries)).mpr table.nodupKeys

/-- `First`, the key at the cursor. -/
def Table.first (table : Table) : Option Text := table.keys.head?

/-- `Next`, the key at the cursor after a key. -/
def Table.next (table : Table) (key : Text) : Option Text :=
  ((table.keys.dropWhile (· ≠ key)).drop 1).head?

/-- `Insert`. -/
def Table.put (layout : Layout) (key : Text) (access : Nat) (table : Table) : Except Exn Table :=
  if key ∈ table then .error (.constraintError .present)
  else .ok (Table.arranged layout (table.insert key access))

/-- `Group_Map`. -/
abbrev Groups := AList (fun _ : Text => Table)

/-! ## The object -/

/-- `Object`, and the holders that have been allocated and not freed. -/
structure Object (ε : Type) where
  container : Table := ∅
  groups : Groups := ∅
  isOpen : Bool := true
  holders : Nat → Option (ClientHolder ε) := fun _ => none
  allocated : Nat := 0
  /-- The clients for which `Send_Data` has been called, in the order of the calls. -/
  considered : List (Text × Nat) := []

/-- A protected operation. -/
abbrev Protected (ε α : Type) := EStateM Exn (Object ε) α

namespace Object

variable {δ ε : Type}

/-- The holder behind an access. -/
def deref (access : Nat) : Protected ε (ClientHolder ε) := fun object =>
  match object.holders access with
  | some holder => .ok holder object
  | none => .error .dangling object

/-- The holder behind an access changes. -/
def setHolder (access : Nat) (holder : ClientHolder ε) (object : Object ε) : Object ε :=
  { object with holders := Function.update object.holders access (some holder) }

/-- An operation on the holder behind an access. -/
def onHolder {α : Type} (access : Nat) (operation : Holding ε α) : Protected ε α := fun object =>
  match object.holders access with
  | some holder =>
      match operation holder with
      | .ok result holder => .ok result (object.setHolder access holder)
      | .error exn holder => .error exn (object.setHolder access holder)
  | none => .error .dangling object

/-- The holder behind an access is no more. -/
def freed (access : Nat) (object : Object ε) : Object ε :=
  { object with holders := Function.update object.holders access none }

/-- `Free`. -/
def free (access : Nat) : Protected ε Unit := do
  let _ ← deref access
  modify (freed access)

/-- The access that a table keeps under a key. -/
def element (table : Table) (key : Text) : Protected ε Nat :=
  match table.lookup key with
  | some access => pure access
  | none => throw (.constraintError .absent)

/-- The result of inserting, or its exception. -/
def lift {α : Type} (result : Except Exn α) : Protected ε α :=
  match result with
  | .ok value => pure value
  | .error exn => throw exn

/-- `Add_To_Groups`. -/
def addToGroups (layouts : Layouts) (clientId : Text) (holder : Nat) (groupName : Text) :
    Protected ε Unit := do
  let map := ((← get).groups.lookup groupName).getD ∅
  let map ← lift (map.put (layouts (.group groupName)) clientId holder)
  modify fun object => { object with groups := object.groups.insert groupName map }

/-- A table of a group without one of its members, or no table if it was the last one. -/
def dropMember (key name : Text) : Protected ε Unit := do
  match (← get).groups.lookup name with
  | none => throw (.constraintError .absent)
  | some map =>
      if key ∈ map then
        let map := map.erase key
        modify fun object => { object with groups :=
          if map.entries = [] then object.groups.erase name else object.groups.insert name map }
      else throw (.constraintError .absent)

/-- `Unregister` at a cursor of the container. -/
def unregisterCursor (key : Text) : Protected ε Unit := do
  let access ← element (← get).container key
  let holder ← deref access
  modify fun object => { object with container := object.container.erase key }
  holder.groups.names.forM (dropMember key)

/-- The client is inserted and added to its groups. -/
def insertClient (layouts : Layouts) (clientId : Text) (access : Nat) : Protected ε Unit := do
  let container ← lift ((← get).container.put (layouts .container) clientId access)
  modify fun object => { object with container }
  onHolder access (modify fun holder => { holder with phase := .going })
  let holder ← deref access
  holder.groups.names.forM (addToGroups layouts clientId access)

/-- `Register`.  The result is `Duplicated`. -/
def register (layouts : Layouts) (clock : Int) (clientId : Text) (access : Nat)
    (duplicatedAge : Int) : Protected ε (Option Nat) := do
  if (← get).isOpen then
    match (← get).container.lookup clientId with
    | none =>
        insertClient layouts clientId access
        return none
    | some duplicated =>
        if duplicatedAge < clock - (← deref duplicated).created then
          unregisterCursor clientId
          insertClient layouts clientId access
          return some duplicated
        else
          free access
          throw .duplicateClientId
  else
    free access
    throw .closed

/-- `Restart`. -/
def restart : Protected ε Unit := modify fun object => { object with isOpen := true }

/-- `Send_Data`. -/
def sendData (config : Config δ ε) (behaviour : Nat → Behaviour) (sending : Sending δ)
    (key : Text) (access : Nat) : Protected ε Bool := do
  modify fun object => { object with considered := object.considered ++ [(key, access)] }
  if (← get).isOpen then onHolder access (ClientHolder.sendData config (behaviour access) sending)
  else throw .closed

/-- The table of a group, through an access to it. -/
def groupTable (name : Text) : Protected ε Table := fun object =>
  match object.groups.lookup name with
  | some map => .ok map object
  | none => .error .dangling object

/-- The table through which `Send` goes. -/
def recipients (groupId : Text) : Protected ε Table := do
  if groupId = [] then return (← get).container else groupTable groupId

/-- A client that has failed is unregistered. -/
def dropFailed (key : Text) (access : Nat) : Protected ε Unit := do
  let holder ← deref access
  if holder.errmsg ≠ [] then unregisterCursor key else pure ()

/-- What a turn of the loop of `Send` does with a client. -/
def sendOne (config : Config δ ε) (layouts : Layouts) (behaviour : Nat → Behaviour)
    (sending : Sending δ) (key : Text) (access : Nat) (queue : Table) : Protected ε Table := do
  let kept ← sendData config behaviour sending key access
  if kept then
    let queue ← lift (queue.put (layouts .queue) key access)
    dropFailed key access
    return queue
  else return queue

/-- A turn of the loop of `Send`, at a cursor. -/
def sendTurn (config : Config δ ε) (layouts : Layouts) (behaviour : Nat → Behaviour)
    (sending : Sending δ) (groupId key : Text) (queue : Table) : Protected ε (Table × Option Text) := do
  let table ← recipients groupId
  let access ← element table key
  let queue ← sendOne config layouts behaviour sending key access queue
  return (queue, table.next key)

/-- The loop of `Send`. -/
def sendLoop (config : Config δ ε) (layouts : Layouts) (behaviour : Nat → Behaviour)
    (sending : Sending δ) (groupId : Text) : Nat → Option Text → Table → Protected ε Table
  | _, none, queue => pure queue
  | 0, some _, _ => throw .endless
  | times + 1, some key, queue => do
      let (queue, next) ← sendTurn config layouts behaviour sending groupId key queue
      sendLoop config layouts behaviour sending groupId times next queue

/-- `Send`.  The result is `Queue`. -/
def send (config : Config δ ε) (layouts : Layouts) (behaviour : Nat → Behaviour)
    (sending : Sending δ) (groupId : Text) : Protected ε Table := do
  if groupId ≠ [] ∧ ((← get).groups.lookup groupId).isNone then return ∅
  else
    let table ← recipients groupId
    sendLoop config layouts behaviour sending groupId table.entries.length table.first ∅

/-- `Send_To`.  The result is `Holder`. -/
def sendTo (config : Config δ ε) (behaviour : Nat → Behaviour) (sending : Sending δ)
    (clientId : Text) : Protected ε (Option Nat) := do
  match (← get).container.lookup clientId with
  | some access =>
      let kept ← sendData config behaviour sending clientId access
      if kept then
        dropFailed clientId access
        return some access
      else return none
  | none => throw .clientGone

/-- `Shutdown`. -/
def shutdown (config : Config δ ε) (layouts : Layouts) (behaviour : Nat → Behaviour)
    (finalData : Sending δ) : Protected ε Table := do
  let queue ← send config layouts behaviour { finalData with thinId := [] } []
  modify fun object => { object with isOpen := false }
  return queue

/-- `Shutdown_If_Empty`. -/
def shutdownIfEmpty : Protected ε Bool := do
  modify fun object =>
    { object with isOpen := object.isOpen && object.container.entries ≠ [] }
  return (← get).isOpen

/-- The client joins a group, unless it is a member. -/
def joinGroup (layouts : Layouts) (name key : Text) (access : Nat) : Protected ε Unit := do
  let holder ← deref access
  if name ∈ holder.groups then return
  else
    modify (setHolder access { holder with groups := holder.groups.insert name })
    addToGroups layouts key access name

/-- `Subscribe`. -/
def subscribe (layouts : Layouts) (clientId groupId : Text) : Protected ε Unit := do
  match (← get).container.lookup clientId with
  | some access => joinGroup layouts groupId clientId access
  | none => return

/-- `Process` in `Subscribe_Copy`, which cannot insert into the table that is gone through. -/
def copyMember (layouts : Layouts) (source target : Text) (node : Sigma fun _ : Text => Nat) :
    Protected ε Unit := do
  let holder ← deref node.2
  if source ≠ [] ∧ source = target ∧ target ∉ holder.groups then throw .programError
  else joinGroup layouts target node.1 node.2

/-- `Subscribe_Copy`. -/
def subscribeCopy (layouts : Layouts) (source target : Text) : Protected ε Unit := do
  if source = [] then
    (← get).container.entries.forM (copyMember layouts source target)
  else
    match (← get).groups.lookup source with
    | some map => map.entries.forM (copyMember layouts source target)
    | none => return

/-- `Unregister`. -/
def unregister (clientId : Text) : Protected ε (Option Nat) := do
  match (← get).container.lookup clientId with
  | some access =>
      unregisterCursor clientId
      return some access
  | none => return none

/-- The loop of `Unregister_Clients`. -/
def unregisterLoop (layout : Layout) : Nat → Table → Protected ε Table
  | 0, _ => throw .endless
  | times + 1, queue => do
      let container := (← get).container
      match container.first with
      | none => return queue
      | some key =>
          let queue ← lift (queue.put layout key (← element container key))
          unregisterCursor key
          unregisterLoop layout times queue

/-- `Unregister_Clients`. -/
def unregisterClients (layouts : Layouts) (isOpen : Bool) : Protected ε Table := do
  modify fun object => { object with isOpen }
  unregisterLoop (layouts .queue) ((← get).container.entries.length + 1) ∅

/-- `Unsubscribe`. -/
def unsubscribe (clientId groupId : Text) : Protected ε Unit := do
  match (← get).container.lookup clientId with
  | some access =>
      let holder ← deref access
      if groupId ∈ holder.groups then
        modify (setHolder access { holder with groups := holder.groups.delete groupId })
        dropMember clientId groupId
      else return
  | none => return

/-- A turn of the loop of `Unsubscribe_Copy`, at a cursor of the table of the target.  The table may be
left without members. -/
def unsubscribeTurn (source target key : Text) : Protected ε (Option Text) := do
  let group ← groupTable target
  let access ← element group key
  let client ← deref access
  if source = [] ∨ source ∈ client.groups then
    if target ∈ client.groups then
      modify (setHolder access { client with groups := client.groups.delete target })
      modify fun object => { object with groups := object.groups.insert target (group.erase key) }
      return group.next key
    else throw (.constraintError .absent)
  else return group.next key

/-- The loop of `Unsubscribe_Copy`. -/
def unsubscribeLoop (source target : Text) : Nat → Option Text → Protected ε Unit
  | _, none => pure ()
  | 0, some _ => throw .endless
  | times + 1, some key => do
      let next ← unsubscribeTurn source target key
      unsubscribeLoop source target times next

/-- `Unsubscribe_Copy`. -/
def unsubscribeCopy (source target : Text) : Protected ε Unit := do
  match (← get).groups.lookup target with
  | none => return
  | some group =>
      unsubscribeLoop source target group.entries.length group.first
      modify fun object =>
        match object.groups.lookup target with
        | some ⟨[], _⟩ => { object with groups := object.groups.erase target }
        | _ => object

/-! ## The waiter -/

/-- `Get_Data`, for an array of some size. -/
def getData (access size : Nat) : Protected ε Octets := do
  let holder ← deref access
  if holder.phase = .waiting then
    let data ← onHolder access (ClientHolder.getData size)
    if data = [] then onHolder access (modify fun holder => { holder with phase := .available })
    else pure ()
    return data
  else throw .assertionError

/-- `Waiter_Error`. -/
def waiterError (access : Nat) (message : ErrorMessage) : Protected ε Unit := do
  let holder ← deref access
  if holder.phase = .waiting then
    onHolder access (modify fun holder => { holder.fail message.1 with phase := .available })
  else throw .assertionError

/-- What `Add_Item` of the waiter does with the holder. -/
def addItem (access : Nat) : Protected ε Unit := do
  let holder ← deref access
  if holder.phase = .going then
    onHolder access (modify fun holder => { holder with phase := .waiting })
  else throw .programError

/-- What the waiter does with a holder that it removes. -/
def removeItem (access : Nat) : Protected ε Unit :=
  onHolder access (modify fun holder => { holder with phase := .available })

/-! ## Integrity -/

/-- The check of a group of a client in `Info`. -/
def checkMember (key : Text) (access : Nat) (name : Text) : Protected ε Unit := do
  match (← get).groups.lookup name with
  | none => throw .programError
  | some map =>
      let member ← element map key
      if member = access then pure () else throw .programError

/-- `Action` in `Info`. -/
def checkClient (node : Sigma fun _ : Text => Nat) : Protected ε Unit := do
  let holder ← deref node.2
  holder.groups.names.forM (checkMember node.1 node.2)

/-- The check of a client in a table of a group in `Info`. -/
def checkLoose (name : Text) (node : Sigma fun _ : Text => Nat) : Protected ε Unit := do
  let holder ← deref node.2
  if name ∈ holder.groups then pure () else throw .programError

/-- `Info`.  The results are the numbers of clients and of groups. -/
def info : Protected ε (Nat × Nat) := do
  (← get).container.entries.forM checkClient
  (← get).groups.entries.forM fun group => group.2.entries.forM (checkLoose group.1)
  return ((← get).container.entries.length, (← get).groups.entries.length)

end Object
end Push
end AdaWebServer

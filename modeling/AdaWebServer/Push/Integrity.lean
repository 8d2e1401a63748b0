import AdaWebServer.Foundations.Execution
import AdaWebServer.Push.Broadcast

/-!
# Runs of a push server

Tasks call the protected operations in any order, and the waiter goes on in between.  What clients
and groups know of each other stays consistent, so that no operation looks for a client or a group
that is not there.
-/

namespace AdaWebServer
namespace Push

open Http2 (Octets Text)
open Execution Protected

variable {δ ε : Type}

/-- What an operation finds around the object. -/
structure Surroundings where
  layouts : Layouts
  behaviour : Nat → Behaviour
  clock : Int

/-- What a client is registered with. -/
structure Registration (ε : Type) where
  clientId : Text
  webSocket : Bool
  environment : ε
  kind : Mode
  duplicatedAge : Int
  groups : GroupSet
  timeout : Int

/-- `To_Holder`. -/
def Registration.toHolder (registration : Registration ε) (clock : Int) : ClientHolder ε where
  webSocket := registration.webSocket
  kind := registration.kind
  created := clock
  environment := registration.environment
  groups := registration.groups
  timeout := registration.timeout

/-- The operations on the object. -/
inductive Operation (δ ε : Type) where
  | register (registration : Registration ε)
  | unregister (clientId : Text)
  | unregisterClients (isOpen : Bool)
  | subscribe (clientId groupId : Text)
  | subscribeCopy (source target : Text)
  | unsubscribe (clientId groupId : Text)
  | unsubscribeCopy (source target : Text)
  | send (sending : Sending δ) (groupId : Text)
  | sendTo (clientId : Text) (sending : Sending δ)
  | shutdown (finalData : Sending δ)
  | shutdownIfEmpty
  | restart
  | info
  | getData (access size : Nat)
  | waiterError (access : Nat) (message : ErrorMessage)
  | addItem (access : Nat)
  | removeItem (access : Nat)
  | free (access : Nat)

namespace Object

/-- A holder is allocated. -/
def allocate (holder : ClientHolder ε) (object : Object ε) : Object ε :=
  { object.setHolder object.allocated holder with allocated := object.allocated + 1 }

/-- An operation of which the result does not matter. -/
def only {α : Type} (operation : Protected ε α) : Protected ε Unit := do
  let _ ← operation

/-- An operation on the object.  A client that is registered gets a new holder. -/
def perform (config : Config δ ε) (around : Surroundings) : Operation δ ε → Protected ε Unit
  | .register registration => do
      let access := (← get).allocated
      modify (allocate (registration.toHolder around.clock))
      only (register around.layouts around.clock registration.clientId access
        registration.duplicatedAge)
  | .unregister clientId => only (unregister clientId)
  | .unregisterClients isOpen => only (unregisterClients around.layouts isOpen)
  | .subscribe clientId groupId => subscribe around.layouts clientId groupId
  | .subscribeCopy source target => subscribeCopy around.layouts source target
  | .unsubscribe clientId groupId => unsubscribe clientId groupId
  | .unsubscribeCopy source target => unsubscribeCopy source target
  | .send sending groupId => only (send config around.layouts around.behaviour sending groupId)
  | .sendTo clientId sending => only (sendTo config around.behaviour sending clientId)
  | .shutdown finalData => only (shutdown config around.layouts around.behaviour finalData)
  | .shutdownIfEmpty => only shutdownIfEmpty
  | .restart => restart
  | .info => only info
  | .getData access size => only (getData access size)
  | .waiterError access message => waiterError access message
  | .addItem access => addItem access
  | .removeItem access => removeItem access
  | .free access => free access

/-- The waiter takes data for a client that waits, is given an error for one, or adds one that is
on its way.  What is removed by the waiter or freed is not registered. -/
def Possible (object : Object ε) : Operation δ ε → Prop
  | .getData access size => 0 < size ∧ (object.holders access).any (·.phase = .waiting)
  | .waiterError access _ => (object.holders access).any (·.phase = .waiting)
  | .addItem access => (object.holders access).any (·.phase = .going)
  | .removeItem access | .free access => (object.holders access).isSome ∧ object.Unregistered access
  | _ => True

/-- The steps of the tasks. -/
def Steps (config : Config δ ε) (before : Object ε) (label : Surroundings × Operation δ ε)
    (after : Object ε) : Prop :=
  before.Possible label.2 ∧ after = left (perform config label.1 label.2 before)

variable {object : Object ε} {config : Config δ ε}

/-- A new holder is not registered. -/
theorem Consistent.allocate (consistent : object.Consistent) {holder : ClientHolder ε}
    (orderly : holder.Orderly) : (object.allocate holder).Consistent ∧
      (object.allocate holder).Unregistered object.allocated ∧
      (object.allocate holder).holders object.allocated = some holder := by
  have unregistered : object.Unregistered object.allocated := by
    intro key registered
    obtain ⟨old, found, _⟩ := consistent.alive registered
    rw [consistent.fresh le_rfl] at found
    cases found
  have others : ∀ {key access}, object.container.lookup key = some access →
      (object.allocate holder).holders access = object.holders access := by
    intro key access registered
    refine (holders_setHolder access holder).trans (if_neg ?_)
    rintro rfl
    exact unregistered key registered
  refine ⟨⟨⟨fun name key access => ?_, fun {key access} registered => ?_, consistent.single,
    fun {access} large => ?_, ?_⟩, consistent.filled⟩, unregistered,
    (holders_setHolder _ holder).trans (if_pos rfl)⟩
  · refine (consistent.member_iff name key access).trans (and_congr_right fun registered => ?_)
    rw [others registered]
  · rw [others registered]
    exact consistent.alive registered
  · have larger : object.allocated + 1 ≤ access := large
    refine (holders_setHolder access holder).trans ?_
    rw [if_neg (by omega)]
    exact consistent.fresh (by omega)
  · exact fun found => ordered_setHolder consistent.ordered orderly found

theorem only_ensures {α : Type} {operation : Protected ε α} {returns : α → Object ε → Prop}
    {raises : Exn → Object ε → Prop} (ensures : Ensures returns raises (operation object))
    (keeps : ∀ value after, returns value after → Consistent after) :
    Ensures (fun _ => Consistent) raises (only operation object) :=
  ensures.bind keeps

/-- A holder changes, but neither its groups nor its queue. -/
theorem change_ensures {access : Nat} {holder : ClientHolder ε} (consistent : object.Consistent)
    (found : object.holders access = some holder) {change : ClientHolder ε → ClientHolder ε}
    (groups : (change holder).groups = holder.groups) (orderly : (change holder).Orderly)
    (idle : ¬object.Unregistered access → (change holder).Idle) :
    Ensures (fun _ => Consistent) Refused (onHolder access (modify change) object) := by
  rw [onHolder_found found]
  exact consistent.setHolder found groups orderly idle

/-- The waiter takes data for a client, which becomes available once there are none left. -/
theorem getData_ensures {access size : Nat} {holder : ClientHolder ε}
    (consistent : object.Consistent) (found : object.holders access = some holder)
    (waiting : holder.phase = .waiting) (positive : 0 < size) :
    Ensures (fun _ => Consistent) Refused (getData access size object) := by
  obtain ⟨data, after, returned, takes, last⟩ :=
    ClientHolder.getData_spec positive (consistent.ordered found)
  have still : after.phase = .waiting := takes.phase.trans waiting
  have kept : (object.setHolder access after).Consistent :=
    consistent.setHolder found takes.same.groups takes.orderly fun _ available =>
      nomatch still.symm.trans available
  have found' : (object.setHolder access after).holders access = some after :=
    (holders_setHolder access after).trans (if_pos rfl)
  rw [getData, bind_returned (deref_ok found), if_pos waiting]
  change Ensures _ _ ((onHolder access _ >>= _) object)
  rw [bind_returned (by rw [onHolder_found found, returned])]
  by_cases none : data = []
  · rw [if_pos none]
    exact (change_ensures kept found' rfl (takes.orderly.congr rfl rfl rfl)
      fun _ _ _ => last none).bind fun _ _ consistent' => consistent'
  · rw [if_neg none]
    exact kept

/-- A message is sent to a client that is not registered. -/
def Misses (object : Object ε) (operation : Operation δ ε) : Prop :=
  ∃ clientId sending, operation = .sendTo clientId sending ∧ object.container.lookup clientId = none

/-- An operation refuses what is asked for, or its client is gone. -/
def Fails (object : Object ε) (operation : Operation δ ε) (exn : Exn) : Prop :=
  exn.IsRefusal ∨ (exn = .clientGone ∧ object.Misses operation)

/-- Every operation that is possible keeps the object consistent, and fails only by refusing. -/
theorem perform_ensures (consistent : object.Consistent) (around : Surroundings)
    {operation : Operation δ ε} (possible : object.Possible operation) :
    Ensures (fun _ => Consistent) (fun exn after => after.Consistent ∧ object.Fails operation exn)
      (perform config around operation object) := by
  have refusing : ∀ {result : EStateM.Result Exn (Object ε) Unit},
      Ensures (fun _ => Consistent) Refused result →
      Ensures (fun _ => Consistent) (fun exn after => after.Consistent ∧ object.Fails operation exn)
        result :=
    fun ensures => ensures.mono_raises fun _ _ refused => ⟨refused.2, .inl refused.1⟩
  cases operation with
  | register registration =>
      have orderly : (registration.toHolder around.clock).Orderly :=
        ⟨List.nodup_nil, nofun, fun thinId node => iff_of_false nofun (by rintro ⟨_, _, ⟨⟩, _⟩)⟩
      obtain ⟨consistent', unregistered, found⟩ := consistent.allocate orderly
      rw [perform, get_bind, modify_bind]
      exact refusing (only_ensures (register_ensures consistent' unregistered found orderly)
        fun _ _ => id)
  | unregister clientId =>
      exact refusing (only_ensures (unregister_ensures consistent) fun _ _ => id)
  | unregisterClients isOpen =>
      exact refusing (only_ensures (unregisterClients_ensures consistent) fun _ _ => id)
  | subscribe clientId groupId => exact refusing (subscribe_ensures consistent)
  | subscribeCopy source target => exact refusing (subscribeCopy_ensures consistent)
  | unsubscribe clientId groupId => exact refusing (unsubscribe_ensures consistent)
  | unsubscribeCopy source target => exact refusing (unsubscribeCopy_ensures consistent)
  | send sending groupId =>
      obtain ⟨nodes, _, _, sent⟩ := @send_ensures _ _ _ around.layouts config around.behaviour
        sending groupId consistent
      exact refusing (only_ensures (sent.mono_raises fun _ _ => And.left) fun _ _ => And.left)
  | sendTo clientId sending =>
      refine (only_ensures (sendTo_ensures consistent) fun _ _ => And.left).mono_raises ?_
      rintro exn after (refused | ⟨gone, missing, consistent'⟩)
      · exact ⟨refused.2, .inl refused.1⟩
      · exact ⟨consistent', .inr ⟨gone, clientId, sending, rfl, missing⟩⟩
  | shutdown finalData =>
      exact refusing (only_ensures (shutdown_ensures consistent) fun _ _ => id)
  | shutdownIfEmpty => exact consistent.congr rfl rfl rfl rfl
  | restart => exact consistent.congr rfl rfl rfl rfl
  | info =>
      rw [perform, only, bind_returned (info_ok consistent)]
      exact consistent
  | getData access size =>
      obtain ⟨positive, waits⟩ := possible
      obtain ⟨holder, found, waiting⟩ := (Option.any_eq_true _ _).mp waits
      exact refusing (only_ensures
        (getData_ensures consistent found (of_decide_eq_true waiting) positive) fun _ _ => id)
  | waiterError access message =>
      obtain ⟨holder, found, waiting⟩ := (Option.any_eq_true _ _).mp possible
      rw [perform, waiterError, bind_returned (deref_ok found), if_pos (of_decide_eq_true waiting)]
      exact refusing (change_ensures consistent found rfl
        ((consistent.ordered found).congr rfl rfl rfl) fun _ _ cause => absurd cause message.2)
  | addItem access =>
      obtain ⟨holder, found, going⟩ := (Option.any_eq_true _ _).mp possible
      rw [perform, addItem, bind_returned (deref_ok found), if_pos (of_decide_eq_true going)]
      exact refusing (change_ensures consistent found rfl
        ((consistent.ordered found).congr rfl rfl rfl) fun _ => nofun)
  | removeItem access =>
      obtain ⟨holder, found⟩ := Option.isSome_iff_exists.mp possible.1
      exact refusing (change_ensures consistent found rfl
        ((consistent.ordered found).congr rfl rfl rfl) fun registered =>
          absurd possible.2 registered)
  | free access =>
      obtain ⟨holder, found⟩ := Option.isSome_iff_exists.mp possible.1
      rw [perform, free_ok found]
      exact consistent.free possible.2

theorem Steps.keeps {label : Surroundings × Operation δ ε} {after : Object ε}
    (consistent : object.Consistent) (step : Steps config object label after) :
    after.Consistent := by
  obtain ⟨possible, rfl⟩ := step
  have ensures := @perform_ensures _ _ _ config consistent label.1 _ possible
  cases done : perform config label.1 label.2 object with
  | ok result next =>
      rw [done] at ensures
      exact ensures
  | error exn next =>
      rw [done] at ensures
      exact ensures.1

theorem consistent_initial : ({} : Object ε).Consistent where
  member_iff _ _ _ := iff_of_false nofun fun both => nomatch both.1
  alive := nofun
  single := nofun
  fresh _ := rfl
  ordered := nofun
  filled := nofun

theorem consistent_of_run {labels : List (Surroundings × Operation δ ε)}
    (run : Run (Steps config) {} labels object) : object.Consistent :=
  run.invariant Consistent consistent_initial Steps.keeps

/-- What a broadcast considers: each member of the group once, unless the server is closed or a
number is out of its range. -/
def ConsidersOnce (config : Config δ ε) (around : Surroundings) (sending : Sending δ)
    (groupId : Text)
    (object : Object ε) : Prop :=
  ∃ nodes : List (Text × Nat), nodes.Nodup ∧
    (∀ key access, (key, access) ∈ nodes ↔ object.container.lookup key = some access ∧
      (groupId = [] ∨ ∃ holder, object.holders access = some holder ∧ groupId ∈ holder.groups)) ∧
    match send config around.layouts around.behaviour sending groupId object with
    | .ok _ after => after.considered = object.considered ++ nodes
    | .error exn after => (∃ access ∈ nodes.map Prod.snd, Stops config sending object access exn) ∧
        ∃ part, part <+: nodes ∧ after.considered = object.considered ++ part

theorem considersOnce (consistent : object.Consistent) (around : Surroundings)
    (sending : Sending δ) (groupId : Text) :
    object.ConsidersOnce config around sending groupId := by
  obtain ⟨nodes, nodup, mem_iff, sent⟩ := @send_ensures _ _ _ around.layouts config
    around.behaviour sending groupId consistent
  refine ⟨nodes, nodup, mem_iff, ?_⟩
  cases done : send config around.layouts around.behaviour sending groupId object with
  | ok queue after =>
      rw [done] at sent
      exact sent.2.considered
  | error exn after =>
      rw [done] at sent
      exact sent.2

/-- After every sequence of operations a client is in the table of a group exactly if the group is
in its own set, under the same access, and no table of a group is empty.  So the checks of `Info`
pass, an operation fails only by refusing or because its client is gone, and a broadcast considers
each member once. -/
theorem integrity_of_run {labels : List (Surroundings × Operation δ ε)}
    (run : Run (Steps config) {} labels object) :
    (∀ name key access, object.groups.member name key = some access ↔
      object.container.lookup key = some access ∧
        ∃ holder, object.holders access = some holder ∧ name ∈ holder.groups) ∧
    (∀ name table, object.groups.lookup name = some table → table.entries ≠ []) ∧
    info object =
      .ok (object.container.entries.length, object.groups.entries.length) object ∧
    (∀ around operation, object.Possible operation → ∀ exn after,
      perform config around operation object = .error exn after → object.Fails operation exn) ∧
    ∀ around sending groupId, object.ConsidersOnce config around sending groupId := by
  have consistent := consistent_of_run run
  refine ⟨consistent.member_iff, consistent.filled, info_ok consistent, ?_,
    considersOnce consistent⟩
  intro around operation possible exn after raised
  have ensures := @perform_ensures _ _ _ config consistent around _ possible
  rw [raised] at ensures
  exact ensures.2

/-- Surroundings in which nothing is ready and the socket of one client fails. -/
def surroundingsOf (broken : Nat) : Surroundings where
  layouts _ := ⟨id, fun _ => .refl _⟩
  behaviour access :=
    if access = broken then { check := .error ⟨Http2.text "reset by peer", by decide⟩ }
    else { check := .ok {} }
  clock := 0

/-- A client of groups. -/
def memberRegistration (clientId : Text) (groups : GroupSet) : Registration Unit where
  clientId
  webSocket := false
  environment := ()
  kind := .plain
  duplicatedAge := 0
  groups
  timeout := 0

/-- Octets are sent as they are. -/
def octetsConfig : Config Octets Unit := ⟨fun data _ => data, []⟩

/-- Of two clients of the group `news` one leaves it, and the other one has gone through the waiter
and is lost in a broadcast. -/
def newsOperations : List (Surroundings × Operation Octets Unit) :=
  let news := Http2.text "news"
  [(surroundingsOf 7, .register (memberRegistration (Http2.text "a")
    ⟨[news], List.nodup_singleton _⟩)),
    (surroundingsOf 7, .register (memberRegistration (Http2.text "b")
      ⟨[news], List.nodup_singleton _⟩)),
    (surroundingsOf 7, .addItem 1), (surroundingsOf 7, .getData 1 16),
    (surroundingsOf 7, .unsubscribe (Http2.text "a") news),
    (surroundingsOf 1, .send ⟨[1, 2, 3], [], []⟩ news)]

/-- Clients leave a group and are lost in a broadcast, and what remains is consistent. -/
theorem integrity_of_run_member :
    ∃ object : Object Unit, Run (Steps octetsConfig) {} newsOperations object ∧
      object.considered = [(Http2.text "b", 1)] ∧ object.container.lookup (Http2.text "b") = none ∧
      object.container.lookup (Http2.text "a") = some 0 ∧ object.groups.entries.length = 0 ∧
      info object = .ok (object.container.entries.length, object.groups.entries.length) object ∧
      object.ConsidersOnce octetsConfig (surroundingsOf 0) ⟨[4], [], []⟩ [] := by
  have run : Run (Steps octetsConfig) {} newsOperations
      (newsOperations.foldl (fun object label => left (perform octetsConfig label.1 label.2 object))
        {}) :=
    .snoc (.snoc (.snoc (.snoc (.snoc (.snoc .nil ⟨trivial, rfl⟩) ⟨trivial, rfl⟩) ⟨rfl, rfl⟩)
      ⟨⟨by decide, rfl⟩, rfl⟩) ⟨trivial, rfl⟩) ⟨trivial, rfl⟩
  have integrity := integrity_of_run run
  exact ⟨_, run, by decide, by decide, by decide, by decide, integrity.2.2.1,
    integrity.2.2.2.2 (surroundingsOf 0) ⟨[4], [], []⟩ []⟩

end Object
end Push
end AdaWebServer

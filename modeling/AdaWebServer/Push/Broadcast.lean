import AdaWebServer.Push.Membership

/-!
# Broadcasts

A broadcast goes through a table with a cursor, and unregisters the clients that have failed on its
way.  It considers each client of the table once.
-/

namespace AdaWebServer
namespace Push

open Http2 (Octets Text)
open Protected

namespace Object

variable {δ ε : Type} {object after : Object ε} {layouts : Layouts} {name key : Text}
  {access : Nat} {holder : ClientHolder ε} {config : Config δ ε} {behaviour : Nat → Behaviour}
  {sending : Sending δ}

/-- A message is sent to a client that is registered, and then it is considered. -/
def considering (key : Text) (access : Nat) (object : Object ε) : Object ε :=
  { object with considered := object.considered ++ [(key, access)] }

theorem onHolder_found {α : Type} (found : object.holders access = some holder)
    (operation : Holding ε α) : onHolder access operation object =
      match operation holder with
      | .ok result changed => .ok result (object.setHolder access changed)
      | .error exn changed => .error exn (object.setHolder access changed) := by
  rw [onHolder]
  generalize object.holders access = looked at found
  subst found
  rfl

/-- Why nothing can be sent to a client: the server is closed, or a number that framing computes is out
of its range. -/
def Stops (config : Config δ ε) (sending : Sending δ) (object : Object ε) (access : Nat) (exn : Exn) :
    Prop :=
  (exn = .closed ∧ object.isOpen = false) ∨
    (exn = .constraintError .range ∧ ∃ holder, object.holders access = some holder ∧
      (¬ClientHolder.Frames config sending holder ∨
        ¬ClientHolder.Frames config sending (holder.counted config sending)))

/-- What `Send_Data` leaves. -/
theorem sendData_ensures (consistent : object.Consistent)
    (registered : object.container.lookup key = some access)
    (found : object.holders access = some holder) :
    Ensures (fun kept (after : Object ε) => ∃ changed,
        ClientHolder.Sends config (behaviour access) sending holder kept changed ∧
        after = (object.considering key access).setHolder access changed ∧ after.Consistent)
      (fun exn after => Refused exn after ∧ Stops config sending object access exn ∧
        after.considered = object.considered ++ [(key, access)])
      (sendData config behaviour sending key access object) := by
  obtain ⟨_, found', orderly, idle⟩ := consistent.alive registered
  rw [found, Option.some_inj] at found'
  subst found'
  have consistent' : (object.considering key access).Consistent := consistent.congr rfl rfl rfl rfl
  rw [sendData, modify_bind, get_bind]
  by_cases isOpen : object.isOpen = true
  · have operated := @onHolder_found _ (object.considering key access) _ _ _ found
      (ClientHolder.sendData config (behaviour access) sending)
    change Ensures _ _ ((if object.isOpen = true then onHolder access _ else _ : Protected ε Bool)
      (object.considering key access))
    rw [if_pos isOpen, operated]
    rcases @ClientHolder.sendData_concludes _ _ config _ sending (behaviour access)
        orderly idle with
      ⟨changed, raised, overflows⟩ | ⟨kept, changed, returned, sends⟩
    · obtain ⟨orderly', idle', same⟩ := overflows.keeps orderly idle
      rw [raised]
      refine ⟨⟨trivial, consistent'.setHolder found same.groups orderly' fun _ => idle'⟩,
        .inr ⟨rfl, holder, found, overflows.imp And.left And.left⟩, rfl⟩
    · obtain ⟨orderly', idle', same⟩ := sends.keeps orderly idle
      rw [returned]
      exact ⟨changed, sends, rfl, consistent'.setHolder found same.groups orderly' fun _ => idle'⟩
  · change Ensures _ _ ((if object.isOpen = true then _ else throw .closed : Protected ε Bool)
      (object.considering key access))
    rw [if_neg isOpen]
    exact ⟨⟨trivial, consistent'⟩, .inl ⟨rfl, Bool.eq_false_iff.mpr isOpen⟩, rfl⟩

/-- A client that has been reached: what the message has made of it, and whether it is registered
and queued. -/
structure ReachedClient (config : Config δ ε) (behaviour : Nat → Behaviour) (sending : Sending δ)
    (object : Object ε) (key : Text) (access : Nat) (queue : Table) (after : Object ε)
    (kept : Bool) (holder changed : ClientHolder ε) : Prop where
  before : object.holders access = some holder
  left : after.holders access = some changed
  sends : ClientHolder.Sends config (behaviour access) sending holder kept changed
  queued : queue.lookup key = if kept = true then some access else none
  registered : after.container.lookup key =
    if kept = true ∧ changed.errmsg ≠ [] then none else some access

/-- Some clients have been considered, in an order, and nothing else has changed. -/
structure Reached (config : Config δ ε) (behaviour : Nat → Behaviour) (sending : Sending δ)
    (object : Object ε) (nodes : List (Text × Nat)) (queue : Table) (after : Object ε) : Prop where
  considered : after.considered = object.considered ++ nodes
  isOpen : after.isOpen = object.isOpen
  allocated : after.allocated = object.allocated
  clients : ∀ key access, (key, access) ∈ nodes → ∃ kept holder changed,
    ReachedClient config behaviour sending object key access queue after kept holder changed
  other_holders : ∀ access, access ∉ nodes.map Prod.snd →
    after.holders access = object.holders access
  other_keys : ∀ key, key ∉ nodes.map Prod.fst →
    after.container.lookup key = object.container.lookup key ∧ queue.lookup key = none

/-- A client that has failed is unregistered. -/
theorem dropFailed_ensures (consistent : object.Consistent)
    (registered : object.container.lookup key = some access)
    (found : object.holders access = some holder) :
    Ensures (fun _ (after : Object ε) => after.Consistent ∧
        ((holder.errmsg = [] ∧ after = object) ∨
          holder.errmsg ≠ [] ∧ ∃ groups, after = object.without key groups ∧
            ∀ name, groups.lookup name = Table.pruned key (object.groups.lookup name)))
      (fun _ _ => False) (dropFailed key access object) := by
  rw [dropFailed, bind_returned (deref_ok found)]
  by_cases failed : holder.errmsg = []
  · rw [if_neg (not_not_intro failed)]
    exact ⟨consistent, .inl ⟨failed, rfl⟩⟩
  · obtain ⟨groups, removed, pruned_eq, consistent'⟩ := unregisterCursor_ok consistent registered
    rw [if_pos failed, removed]
    exact ⟨consistent', .inr ⟨failed, groups, rfl, pruned_eq⟩⟩

/-- One client has been considered. -/
structure OneSent (config : Config δ ε) (behaviour : Nat → Behaviour) (sending : Sending δ)
    (object : Object ε) (key : Text) (access : Nat) (queue queue' : Table) (after : Object ε) :
    Prop where
  considered : after.considered = object.considered ++ [(key, access)]
  isOpen : after.isOpen = object.isOpen
  allocated : after.allocated = object.allocated
  client : ∃ kept holder changed,
    ReachedClient config behaviour sending object key access queue' after kept holder changed
  other_holders : ∀ other, other ≠ access → after.holders other = object.holders other
  other_queued : ∀ other, other ≠ key → queue'.lookup other = queue.lookup other
  tables : (after.container = object.container ∧ after.groups = object.groups) ∨
    (after.container = object.container.erase key ∧
      ∀ name, after.groups.lookup name = Table.pruned key (object.groups.lookup name))

theorem OneSent.other_keys {queue queue' : Table}
    (sent : OneSent config behaviour sending object key access queue queue' after) {other : Text}
    (apart : other ≠ key) : after.container.lookup other = object.container.lookup other := by
  obtain ⟨container_eq, _⟩ | ⟨container_eq, _⟩ := sent.tables
  · rw [container_eq]
  · rw [container_eq, AList.lookup_erase_ne apart]

theorem sendOne_ensures (consistent : object.Consistent)
    (registered : object.container.lookup key = some access) {queue : Table} (new : key ∉ queue) :
    Ensures (fun (queue' : Table) (after : Object ε) => after.Consistent ∧
        OneSent config behaviour sending object key access queue queue' after)
      (fun exn after => Refused exn after ∧ Stops config sending object access exn ∧
        after.considered = object.considered ++ [(key, access)])
      (sendOne config layouts behaviour sending key access queue object) := by
  obtain ⟨holder, found, _⟩ := consistent.alive registered
  refine (sendData_ensures consistent registered found).bind ?_
  rintro kept _ ⟨changed, sends, rfl, consistent'⟩
  have left : ((object.considering key access).setHolder access changed).holders access =
      some changed := by
    rw [holders_setHolder, if_pos rfl]
  have others : ∀ other, other ≠ access →
      ((object.considering key access).setHolder access changed).holders other =
        object.holders other := by
    intro other apart
    rw [holders_setHolder, if_neg apart]
    rfl
  cases kept with
  | false =>
      rw [if_neg Bool.false_ne_true]
      exact ⟨consistent', rfl, rfl, rfl, ⟨false, holder, changed, found, left, sends,
        AList.lookup_eq_none.mpr new, registered⟩, others, fun _ _ => rfl, .inl ⟨rfl, rfl⟩⟩
  | true =>
      rw [if_pos rfl, Table.put_ok new, bind_returned (lift_ok _)]
      refine Ensures.bind (Ensures.of_never (dropFailed_ensures consistent' registered left)) ?_
      have queued : (Table.arranged (layouts .queue) (queue.insert key access)).lookup key =
          some access := by
        rw [Table.lookup_put, if_pos rfl]
      have other_queued : ∀ other, other ≠ key →
          (Table.arranged (layouts .queue) (queue.insert key access)).lookup other =
            queue.lookup other := by
        intro other apart
        rw [Table.lookup_put, if_neg apart]
      rintro _ after ⟨consistent'', ⟨alive, rfl⟩ | ⟨failed, groups, rfl, pruned_eq⟩⟩
      · refine ⟨consistent'', rfl, rfl, rfl, ⟨true, holder, changed, found, left, sends, queued, ?_⟩,
          others, other_queued, .inl ⟨rfl, rfl⟩⟩
        rw [if_neg fun both => both.2 alive]
        exact registered
      · refine ⟨consistent'', rfl, rfl, rfl, ⟨true, holder, changed, found, left, sends, queued, ?_⟩,
          others, other_queued, .inr ⟨rfl, pruned_eq⟩⟩
        rw [if_pos ⟨rfl, failed⟩]
        exact AList.lookup_erase key object.container

theorem Reached.nil : Reached config behaviour sending object [] ∅ object where
  considered := (List.append_nil _).symm
  isOpen := rfl
  allocated := rfl
  clients _ _ among := absurd among List.not_mem_nil
  other_holders _ _ := rfl
  other_keys key _ := ⟨rfl, AList.lookup_empty key⟩

/-- One more client has been considered. -/
theorem Reached.snoc {middle : Object ε} {nodes : List (Text × Nat)} {queue queue' : Table}
    (reached : Reached config behaviour sending object nodes queue middle)
    (sent : OneSent config behaviour sending middle key access queue queue' after)
    (new_key : key ∉ nodes.map Prod.fst) (new_access : access ∉ nodes.map Prod.snd) :
    Reached config behaviour sending object (nodes ++ [(key, access)]) queue' after where
  considered := by rw [sent.considered, reached.considered, List.append_assoc]
  isOpen := sent.isOpen.trans reached.isOpen
  allocated := sent.allocated.trans reached.allocated
  clients other access' among := by
    obtain earlier | last := List.mem_append.mp among
    · obtain ⟨kept, holder, changed, client⟩ := reached.clients other access' earlier
      have apart_key : other ≠ key := by
        rintro rfl
        exact new_key (List.mem_map.mpr ⟨_, earlier, rfl⟩)
      have apart_access : access' ≠ access := by
        rintro rfl
        exact new_access (List.mem_map.mpr ⟨_, earlier, rfl⟩)
      exact ⟨kept, holder, changed, client.before,
        (sent.other_holders access' apart_access).trans client.left, client.sends,
        (sent.other_queued other apart_key).trans client.queued,
        (sent.other_keys apart_key).trans client.registered⟩
    · cases List.mem_singleton.mp last
      obtain ⟨kept, holder, changed, client⟩ := sent.client
      exact ⟨kept, holder, changed,
        (reached.other_holders access new_access).symm.trans client.before, client.left,
        client.sends, client.queued, client.registered⟩
  other_holders other absent := by
    rw [List.map_append, List.mem_append, not_or] at absent
    rw [sent.other_holders other fun same => absent.2 (by rw [same]; exact List.mem_singleton_self _)]
    exact reached.other_holders other absent.1
  other_keys other absent := by
    rw [List.map_append, List.mem_append, not_or] at absent
    have apart : other ≠ key := fun same => absent.2 (by rw [same]; exact List.mem_singleton_self _)
    rw [sent.other_keys apart, sent.other_queued other apart]
    exact reached.other_keys other absent.1

/-! ## The loop -/

/-- The table through which a broadcast to a group goes. -/
def recipientsOf (groupId : Text) (object : Object ε) : Option Table :=
  if groupId = [] then some object.container else object.groups.lookup groupId

theorem recipients_ok {groupId : Text} {table : Table}
    (there : object.recipientsOf groupId = some table) :
    recipients groupId object = .ok table object := by
  rw [recipientsOf] at there
  rw [recipients]
  by_cases all : groupId = []
  · rw [if_pos all, Option.some_inj] at there
    rw [if_pos all, ← there]
    rfl
  · rw [if_neg all] at there
    rw [if_neg all, groupTable_ok there]

/-- The members of the table are registered. -/
theorem Agreeing.recipient_iff (agreeing : object.Agreeing) {groupId : Text} {table : Table}
    (there : object.recipientsOf groupId = some table) :
    table.lookup key = some access ↔ object.container.lookup key = some access ∧
      (groupId = [] ∨ ∃ holder, object.holders access = some holder ∧ groupId ∈ holder.groups) := by
  rw [recipientsOf] at there
  by_cases all : groupId = []
  · rw [if_pos all, Option.some_inj] at there
    rw [there]
    exact (and_iff_left (.inl all)).symm
  · rw [if_neg all] at there
    rw [or_iff_right all, ← agreeing.member_iff, Groups.member, there]
    rfl

/-- What comes after a client in the table stays there. -/
theorem OneSent.recipients {groupId : Text} {table queue queue' : Table}
    {front back : List (Sigma fun _ : Text => Nat)}
    (sent : OneSent config behaviour sending object key access queue queue' after)
    (there : object.recipientsOf groupId = some table)
    (split : table.entries = front ++ ⟨key, access⟩ :: back) (more : back ≠ []) :
    ∃ table' front', after.recipientsOf groupId = some table' ∧ table'.entries = front' ++ back := by
  have erased := Table.entries_erase split
  have nonempty : (table.erase key).entries ≠ [] := by
    rw [erased]
    exact List.append_ne_nil_of_right_ne_nil front more
  rw [recipientsOf] at there
  obtain ⟨container_eq, groups_eq⟩ | ⟨container_eq, groups_eq⟩ := sent.tables
  · refine ⟨table, front ++ [⟨key, access⟩], ?_, by rw [split, List.append_assoc]; rfl⟩
    rw [recipientsOf, container_eq, groups_eq, there]
  · refine ⟨table.erase key, front, ?_, erased⟩
    rw [recipientsOf, container_eq, groups_eq]
    by_cases all : groupId = []
    · rw [if_pos all, Option.some_inj] at there
      rw [if_pos all, there]
    · rw [if_neg all] at there
      rw [if_neg all, there, Table.pruned, Option.bind_some, if_neg nonempty]

theorem sendTurn_ensures {groupId : Text} {table queue : Table}
    {front back : List (Sigma fun _ : Text => Nat)} (consistent : object.Consistent)
    (there : object.recipientsOf groupId = some table)
    (split : table.entries = front ++ ⟨key, access⟩ :: back) (new : key ∉ queue) :
    Ensures (fun (result : Table × Option Text) (after : Object ε) => after.Consistent ∧
        OneSent config behaviour sending object key access queue result.1 after ∧
        result.2 = (back.map Sigma.fst).head?)
      (fun exn after => Refused exn after ∧ Stops config sending object access exn ∧
        after.considered = object.considered ++ [(key, access)])
      (sendTurn config layouts behaviour sending groupId key queue object) := by
  have known := Table.lookup_of_split split
  have registered := ((consistent.recipient_iff there).mp known).1
  rw [sendTurn, bind_returned (recipients_ok there), bind_returned (element_ok known)]
  refine (sendOne_ensures consistent registered new).bind ?_
  rintro queue' after ⟨consistent', sent⟩
  exact ⟨consistent', sent, Table.next_eq split⟩

/-- A node of a table as a key and an access. -/
def pair (node : Sigma fun _ : Text => Nat) : Text × Nat := (node.1, node.2)

theorem sendLoop_ensures {groupId : Text} {times : Nat} {start : Object ε} {done : List (Text × Nat)}
    {rest : List (Sigma fun _ : Text => Nat)} {queue : Table} (consistent : object.Consistent)
    (reached : Reached config behaviour sending start done queue object)
    (there : rest ≠ [] → ∃ table front, object.recipientsOf groupId = some table ∧
      table.entries = front ++ rest)
    (keys : (done.map Prod.fst ++ rest.map Sigma.fst).Nodup)
    (accesses : (done.map Prod.snd ++ rest.map Sigma.snd).Nodup) (enough : rest.length ≤ times) :
    Ensures (fun (queue' : Table) (after : Object ε) => after.Consistent ∧
        Reached config behaviour sending start (done ++ rest.map pair) queue' after)
      (fun exn after => Refused exn after ∧
        (∃ access ∈ (done ++ rest.map pair).map Prod.snd, Stops config sending start access exn) ∧
        ∃ part, part <+: done ++ rest.map pair ∧ after.considered = start.considered ++ part)
      (sendLoop config layouts behaviour sending groupId times (rest.map Sigma.fst).head? queue
        object) := by
  induction rest generalizing object done queue times with
  | nil =>
      rw [List.map_nil, List.append_nil]
      cases times <;> exact ⟨consistent, reached⟩
  | cons node rest ih =>
      obtain ⟨key, access⟩ := node
      obtain ⟨times, rfl⟩ : ∃ left, times = left + 1 := ⟨times - 1, by
        rw [List.length_cons] at enough
        omega⟩
      obtain ⟨table, front, there, split⟩ := there (List.cons_ne_nil _ _)
      have new_key : key ∉ done.map Prod.fst := fun among =>
        (List.nodup_append.mp keys).2.2 key among key List.mem_cons_self rfl
      have new_access : access ∉ done.map Prod.snd := fun among =>
        (List.nodup_append.mp accesses).2.2 access among access List.mem_cons_self rfl
      have new : key ∉ queue := AList.lookup_eq_none.mp (reached.other_keys key new_key).2
      have order_eq : done ++ List.map pair (⟨key, access⟩ :: rest) =
          (done ++ [(key, access)]) ++ rest.map pair := by
        rw [List.append_assoc]
        rfl
      rw [order_eq]
      refine ((sendTurn_ensures consistent there split new).mono_raises ?_).bind ?_
      · rintro exn after ⟨refused, stops, considered_eq⟩
        refine ⟨refused, ⟨access, ?_, ?_⟩, _, List.prefix_append _ _, ?_⟩
        · simp only [List.map_append, List.mem_append, List.map_cons, List.mem_cons, true_or, or_true]
        · rw [Stops, reached.isOpen, reached.other_holders access new_access] at stops
          exact stops
        · rw [considered_eq, reached.considered, List.append_assoc]
      · rintro ⟨queue', next⟩ after ⟨consistent', sent, rfl⟩
        refine ih consistent' (reached.snoc sent new_key new_access)
          (fun more => sent.recipients there split more) ?_ ?_ (Nat.le_of_succ_le_succ enough)
        · rw [List.map_append, List.append_assoc]
          exact keys
        · rw [List.map_append, List.append_assoc]
          exact accesses

/-- A broadcast considers each member of the group once, in the order of its table. -/
theorem send_ensures {groupId : Text} (consistent : object.Consistent) :
    ∃ nodes : List (Text × Nat), nodes.Nodup ∧
      (∀ key access, (key, access) ∈ nodes ↔ object.container.lookup key = some access ∧
        (groupId = [] ∨ ∃ holder, object.holders access = some holder ∧ groupId ∈ holder.groups)) ∧
      Ensures (fun (queue : Table) (after : Object ε) => after.Consistent ∧
          Reached config behaviour sending object nodes queue after)
        (fun exn after => Refused exn after ∧
          (∃ access ∈ nodes.map Prod.snd, Stops config sending object access exn) ∧
          ∃ part, part <+: nodes ∧ after.considered = object.considered ++ part)
        (send config layouts behaviour sending groupId object) := by
  cases there : object.recipientsOf groupId with
  | none =>
      rw [recipientsOf] at there
      split_ifs at there with all
      refine ⟨[], List.nodup_nil, fun key access => iff_of_false List.not_mem_nil ?_, ?_⟩
      · rintro ⟨registered, unnamed | ⟨holder, found, group_mem⟩⟩
        · exact all unnamed
        · obtain ⟨map, grouped, _⟩ := consistent.group_of_client registered found group_mem
          rw [there] at grouped
          cases grouped
      · rw [send, get_bind, if_pos ⟨all, by rw [there]; rfl⟩]
        exact ⟨consistent, .nil⟩
  | some table =>
      have present : ¬(groupId ≠ [] ∧ (object.groups.lookup groupId).isNone = true) := by
        rintro ⟨all, missing⟩
        rw [recipientsOf, if_neg all] at there
        rw [there] at missing
        cases missing
      have nodup : table.entries.Nodup := table.nodupKeys.nodup
      have accesses : (table.entries.map Sigma.snd).Nodup := by
        refine nodup.map_on ?_
        rintro ⟨key, access⟩ among ⟨other, access'⟩ also same
        cases same
        have registered := ((consistent.recipient_iff there).mp (Table.mem_entries.mp among)).1
        have registered' := ((consistent.recipient_iff there).mp (Table.mem_entries.mp also)).1
        rw [consistent.single registered registered']
      refine ⟨table.entries.map pair, ?_, fun key access => ?_, ?_⟩
      · refine nodup.map_on ?_
        rintro ⟨key, access⟩ _ ⟨other, access'⟩ _ same
        cases same
        rfl
      · rw [← consistent.recipient_iff there, ← Table.mem_entries, List.mem_map]
        constructor
        · rintro ⟨node, among, same⟩
          cases same
          exact among
        · exact fun among => ⟨⟨key, access⟩, among, rfl⟩
      · rw [send, get_bind, if_neg present, bind_returned (recipients_ok there)]
        exact @sendLoop_ensures _ _ _ _ _ _ _ _ _ _ [] _ _ consistent .nil (fun _ => ⟨table, [], there, rfl⟩)
          table.nodupKeys accesses le_rfl

/-- A message to one client, which may be gone. -/
theorem sendTo_ensures (consistent : object.Consistent) :
    Ensures (fun (result : Option Nat) (after : Object ε) => after.Consistent ∧
        ∃ access queue, OneSent config behaviour sending object key access ∅ queue after ∧
          object.container.lookup key = some access ∧ result = queue.lookup key)
      (fun exn after => Refused exn after ∨
        (exn = .clientGone ∧ object.container.lookup key = none ∧ after.Consistent))
      (sendTo config behaviour sending key object) := by
  rw [sendTo, get_bind]
  cases registered : object.container.lookup key with
  | none => exact .inr ⟨rfl, rfl, consistent⟩
  | some access =>
      let layouts : Layouts := fun _ => ⟨id, fun _ => .refl _⟩
      have alike : Ensures (fun (result : Option Nat) (after : Object ε) =>
          after.Consistent ∧ ∃ access' queue,
            OneSent config behaviour sending object key access' ∅ queue after ∧
            object.container.lookup key = some access' ∧ result = queue.lookup key) Refused
          ((sendOne config layouts behaviour sending key access ∅ >>= fun queue =>
            pure (queue.lookup key)) object) := by
        refine ((sendOne_ensures consistent registered (AList.notMem_empty key)).mono_raises
          fun _ _ => And.left).bind ?_
        rintro queue after ⟨consistent', sent⟩
        exact ⟨consistent', access, queue, sent, registered, rfl⟩
      simp only [registered] at alike
      refine Ensures.mono_raises (?_ : Ensures _ Refused _) fun _ _ => .inl
      change Ensures _ _ ((sendData config behaviour sending key access >>= _) object)
      cases sent : sendData config behaviour sending key access object with
      | error exn after =>
          rw [sendOne, bind_raised (bind_raised sent)] at alike
          rw [bind_raised sent]
          exact alike
      | ok kept after =>
          rw [sendOne, bind_assoc, bind_returned sent] at alike
          rw [bind_returned sent]
          cases kept with
          | false =>
              rw [if_neg Bool.false_ne_true, pure_bind, AList.lookup_empty] at alike
              rw [if_neg Bool.false_ne_true]
              exact alike
          | true =>
              rw [if_pos rfl, Table.put_ok (AList.notMem_empty key), bind_assoc,
                bind_returned (lift_ok _), bind_assoc] at alike
              rw [if_pos rfl]
              simp only [pure_bind, Table.lookup_put, if_true] at alike
              exact alike

theorem shutdown_ensures (consistent : object.Consistent) :
    Ensures (fun _ => Consistent) Refused (shutdown config layouts behaviour sending object) := by
  obtain ⟨nodes, _, _, sent⟩ := @send_ensures _ _ _ layouts config behaviour
    { sending with thinId := [] } [] consistent
  refine (sent.mono_raises fun _ _ => And.left).bind ?_
  rintro queue after ⟨consistent', _⟩
  exact consistent'.congr rfl rfl rfl rfl

/-! ## The checks of `Info` -/

/-- A loop that leaves the state alone. -/
theorem forM_unchanged {α : Type} {items : List α} {body : α → Protected ε PUnit}
    (each : ∀ item ∈ items, body item object = .ok ⟨⟩ object) :
    items.forM body object = .ok ⟨⟩ object := by
  induction items with
  | nil => rfl
  | cons item items ih =>
      rw [forM_returned (each item List.mem_cons_self)]
      exact ih fun other among => each other (List.mem_cons_of_mem item among)

/-- The checks of `Info` pass. -/
theorem info_ok (consistent : object.Consistent) :
    info object = .ok (object.container.entries.length, object.groups.entries.length) object := by
  have clients : object.container.entries.forM checkClient object = .ok ⟨⟩ object := by
    refine forM_unchanged ?_
    rintro ⟨key, access⟩ among
    have registered := Table.mem_entries.mp among
    obtain ⟨holder, found, _⟩ := consistent.alive registered
    rw [checkClient, bind_returned (deref_ok found)]
    refine forM_unchanged fun name name_mem => ?_
    obtain ⟨map, grouped, known⟩ := consistent.group_of_client registered found name_mem
    rw [checkMember, get_bind, grouped]
    change ((element map key >>= _ : Protected ε Unit) object) = _
    rw [bind_returned (element_ok known), if_pos rfl]
    rfl
  have groups : object.groups.entries.forM
      (fun group => group.2.entries.forM (checkLoose group.1)) object = .ok ⟨⟩ object := by
    refine forM_unchanged ?_
    rintro ⟨name, map⟩ among
    have grouped : object.groups.lookup name = some map := AList.mem_lookup_iff.mpr among
    refine forM_unchanged ?_
    rintro ⟨key, access⟩ member
    obtain ⟨_, holder, found, name_mem⟩ := (consistent.member_iff name key access).mp
      (Groups.member_eq_some.mpr ⟨map, grouped, Table.mem_entries.mp member⟩)
    rw [checkLoose, bind_returned (deref_ok found), if_pos name_mem]
    rfl
  rw [info, get_bind, bind_returned clients, get_bind, bind_returned groups]
  rfl

end Object
end Push
end AdaWebServer

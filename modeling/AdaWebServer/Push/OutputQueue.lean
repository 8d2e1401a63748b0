import AdaWebServer.Push.Integrity

/-!
# The output queue of a client

Additions to the queue of a client and calls of `Get_Data` in any order.  The octets that have been
returned and those that are queued are those of the chunks that have been accepted, once each chunk is
taken that has replaced another.
-/

namespace AdaWebServer
namespace Push
namespace ClientHolder

open Http2 (Octets Text)
open Protected

variable {δ ε : Type} {config : Config δ ε} {holder : ClientHolder ε} {sending : Sending δ}

/-- What is done with a queue. -/
inductive Call (δ : Type) where
  /-- `To_Buffer`. -/
  | toBuffer (sending : Sending δ)
  /-- The rest of a chunk that a socket has taken partially. -/
  | append (data : Octets)
  | getData (size : { size : Nat // 0 < size })

/-- A client, the chunks that its queue has accepted, in their nodes, and the octets that `Get_Data` has
returned. -/
structure Record (ε : Type) where
  holder : ClientHolder ε
  accepted : List (Nat × Octets) := []
  returned : Octets := []

/-- The accepted chunk of a node is another one. -/
def replaceAccepted (node : Nat) (chunk : Octets) (entry : Nat × Octets) : Nat × Octets :=
  if entry.1 = node then (node, chunk) else entry

/-- A chunk is accepted: it replaces the one in the queue that has the same identity, or is the last
one. -/
def Record.accept (record : Record ε) (thinId : Text) (chunk : Octets) : List (Nat × Octets) :=
  match record.holder.chunks.find? fun message => thinId ≠ [] ∧ message.thin = thinId with
  | some old => record.accepted.map (replaceAccepted old.node chunk)
  | none => record.accepted ++ [(record.holder.nodes, chunk)]

/-- A call, and what it accepts and returns.  An addition that raises accepts nothing. -/
def Record.step (config : Config δ ε) (record : Record ε) : Call δ → Record ε
  | .toBuffer sending =>
      match dataChunk config sending record.holder, ClientHolder.toBuffer config sending record.holder with
      | .ok chunk _, .ok () holder =>
          { record with holder, accepted := record.accept sending.thinId chunk }
      | _, .ok () holder => { record with holder }
      | _, .error _ holder => { record with holder }
  | .append data =>
      { record with holder := record.holder.append data [], accepted := record.accept [] data }
  | .getData size =>
      match ClientHolder.getData size record.holder with
      | .ok data holder => { record with holder, returned := record.returned ++ data }
      | .error _ holder => { record with holder }

/-- The identity of a message, and its node. -/
def entry (message : Message) : Sigma fun _ : Text => Nat := ⟨message.thin, message.node⟩

/-- The index has exactly one entry for each chunk that has an identity, and it leads to its node. -/
structure Indexes (holder : ClientHolder ε) : Prop where
  nodup : (holder.chunks.map Message.node).Nodup
  entries : holder.thin.entries.Perm
    ((holder.chunks.filter fun message => message.thin ≠ []).map entry)

/-! ## The index -/

theorem Orderly.indexes (orderly : holder.Orderly) : Indexes holder where
  nodup := orderly.nodup
  entries := by
    have keys := holder.thin.nodupKeys
    have nodes : ((holder.chunks.filter fun message => message.thin ≠ []).map entry).Nodup := by
      have filtered := orderly.nodup.sublist
        (List.filter_sublist (p := fun message => message.thin ≠ []) |>.map Message.node)
      have composed : Message.node = Sigma.snd ∘ entry := rfl
      rw [composed, ← List.map_map] at filtered
      exact filtered.of_map _
    refine (List.perm_ext_iff_of_nodup keys.nodup nodes).mpr ?_
    rintro ⟨thinId, node⟩
    refine AList.mem_lookup_iff.symm.trans ((orderly.thin_iff thinId node).trans ?_)
    simp only [List.mem_map, List.mem_filter, decide_eq_true_eq, entry, Sigma.mk.injEq, heq_eq_eq]
    constructor
    · rintro ⟨named, message, among, node_eq, thin_eq⟩
      exact ⟨message, ⟨among, thin_eq ▸ named⟩, thin_eq, node_eq⟩
    · rintro ⟨message, ⟨among, named⟩, thin_eq, node_eq⟩
      exact ⟨thin_eq ▸ named, message, among, node_eq, thin_eq⟩

/-! ## The accounts -/

/-- The chunk that is accepted when a message is queued. -/
def account (message : Message) : Nat × Octets := (message.node, message.data)

/-- The accepted chunks are those that have been returned, at most one that has been returned in part,
and those that are queued. -/
inductive Accounts : List (Nat × Octets) → Octets → List Message → Prop
  | whole (past : List (Nat × Octets)) (chunks : List Message) :
      Accounts (past ++ chunks.map account) (past.flatMap Prod.snd) chunks
  | cut (past : List (Nat × Octets)) (part : Octets) (message : Message) (rest : List Message)
      (unnamed : message.thin = []) :
      Accounts (past ++ (message.node, part ++ message.data) :: rest.map account)
        (past.flatMap Prod.snd ++ part) (message :: rest)

namespace Accounts

variable {accepted : List (Nat × Octets)} {returned : Octets} {message : Message}
  {chunks rest : List Message}

theorem flatMap_account (chunks : List Message) :
    (chunks.map account).flatMap Prod.snd = chunks.flatMap Message.data :=
  List.flatMap_map account Prod.snd chunks

theorem conserved (accounts : Accounts accepted returned chunks) :
    returned ++ chunks.flatMap Message.data = accepted.flatMap Prod.snd := by
  cases accounts with
  | whole past chunks => rw [List.flatMap_append, flatMap_account]
  | cut past part message rest unnamed =>
      rw [List.flatMap_append, List.flatMap_cons, List.flatMap_cons, flatMap_account,
        List.append_assoc, List.append_assoc]

theorem delete (accounts : Accounts accepted returned (message :: rest)) :
    Accounts accepted (returned ++ message.data) rest := by
  cases accounts with
  | whole past =>
      have next := whole (past ++ [account message]) rest
      rw [List.append_assoc, List.flatMap_append, List.flatMap_singleton] at next
      exact next
  | cut past part _ _ unnamed =>
      have next := whole (past ++ [(message.node, part ++ message.data)]) rest
      rw [List.append_assoc, List.flatMap_append, List.flatMap_singleton] at next
      rw [List.append_assoc (past.flatMap Prod.snd)]
      exact next

/-- The first message is returned in part. -/
theorem shorten (accounts : Accounts accepted returned (message :: rest)) (size : Nat) :
    Accounts accepted (returned ++ message.data.take size)
      ({ message with data := message.data.drop size, thin := [] } :: rest) := by
  have whole_data := List.take_append_drop size message.data
  cases accounts with
  | whole past =>
      have next := cut past (message.data.take size)
        { message with data := message.data.drop size, thin := [] } rest rfl
      dsimp only at next
      rw [whole_data] at next
      exact next
  | cut past part _ _ unnamed =>
      have next := cut past (part ++ message.data.take size)
        { message with data := message.data.drop size, thin := [] } rest rfl
      dsimp only at next
      rw [List.append_assoc, whole_data, ← List.append_assoc] at next
      exact next

theorem append (accounts : Accounts accepted returned chunks) (message : Message) :
    Accounts (accepted ++ [account message]) returned (chunks ++ [message]) := by
  cases accounts with
  | whole past chunks =>
      have next := whole past (chunks ++ [message])
      rw [List.map_append, ← List.append_assoc] at next
      exact next
  | cut past part first rest unnamed =>
      have next := cut past part first (rest ++ [message]) unnamed
      rw [List.map_append, ← List.cons_append, ← List.append_assoc] at next
      exact next

theorem map_replaceAccepted {before after : List (Nat × Octets)} {node : Nat} {old : Octets}
    (nodup : ((before ++ (node, old) :: after).map Prod.fst).Nodup) (chunk : Octets) :
    (before ++ (node, old) :: after).map (replaceAccepted node chunk) =
      before ++ (node, chunk) :: after := by
  rw [List.map_append, List.map_cons, List.nodup_append] at nodup
  obtain ⟨_, later, apart⟩ := nodup
  have others : ∀ entries : List (Nat × Octets), (∀ entry ∈ entries, entry.1 ≠ node) →
      entries.map (replaceAccepted node chunk) = entries := by
    intro entries different
    conv_rhs => rw [← List.map_id entries]
    exact List.map_congr_left fun entry among => if_neg (different entry among)
  rw [List.map_append, List.map_cons, others before, others after]
  · exact congrArg (fun entry => before ++ entry :: after) (if_pos rfl)
  · intro entry among same
    exact (List.nodup_cons.mp later).1 (List.mem_map.mpr ⟨entry, among, same⟩)
  · intro entry among same
    exact apart _ (List.mem_map_of_mem among) _ List.mem_cons_self same

/-- A chunk replaces one that is queued with its identity, of which nothing has been returned. -/
theorem replace {front back : List Message} {old : Message}
    (accounts : Accounts accepted returned (front ++ old :: back)) (named : old.thin ≠ [])
    (nodup : (accepted.map Prod.fst).Nodup) (chunk : Octets) :
    Accounts (accepted.map (replaceAccepted old.node chunk)) returned
      (front ++ { old with data := chunk } :: back) := by
  have split : ∀ message : Message, (front ++ message :: back).map account =
      front.map account ++ account message :: back.map account := fun message => List.map_append
  generalize chunks_eq : front ++ old :: back = chunks at accounts
  cases accounts with
  | whole past =>
      rw [← chunks_eq, split, ← List.append_assoc] at nodup ⊢
      have next := whole past (front ++ { old with data := chunk } :: back)
      rw [split, ← List.append_assoc] at next
      rw [account, map_replaceAccepted nodup chunk]
      exact next
  | cut past part message rest unnamed =>
      cases front with
      | nil =>
          obtain ⟨rfl, -⟩ := List.cons_eq_cons.mp chunks_eq
          exact absurd unnamed named
      | cons first front =>
          obtain ⟨rfl, rest_eq⟩ := List.cons_eq_cons.mp chunks_eq
          have accepted_eq : ∀ message : Message,
              past ++ (first.node, part ++ first.data) :: (front ++ message :: back).map account =
                (past ++ (first.node, part ++ first.data) :: front.map account) ++
                  account message :: back.map account := by
            intro message
            rw [List.map_append, List.append_assoc]
            rfl
          have next := cut past part first (front ++ { old with data := chunk } :: back) unnamed
          have rest_eq : front ++ old :: back = rest := rest_eq
          rw [← rest_eq, accepted_eq] at nodup ⊢
          rw [accepted_eq] at next
          rw [account, map_replaceAccepted nodup chunk]
          exact next

end Accounts

/-! ## Calls -/

/-- The loop of `Get_Data` ends with the first message that does not fit. -/
theorem getDataLoop_accounts {accepted : List (Nat × Octets)} {returned taken : Octets}
    {chunks : List Message} {size : Nat} (positive : 0 < size) (orderly : holder.Orderly)
    (chunks_eq : holder.chunks = chunks) (accounts : Accounts accepted returned chunks) :
    ∃ data after, (∀ times, chunks.length < times →
        getDataLoop size times taken holder = .ok (taken ++ data) after) ∧
      after.Orderly ∧ after.nodes = holder.nodes ∧ Accounts accepted (returned ++ data) after.chunks ∧
      (taken ++ data = [] → after.chunks = []) := by
  induction chunks generalizing holder returned taken with
  | nil =>
      refine ⟨[], holder, ?_, orderly, rfl, ?_, fun _ => chunks_eq⟩
      · intro times enough
        obtain ⟨times, rfl⟩ := Nat.exists_eq_succ_of_ne_zero (Nat.ne_zero_of_lt enough)
        rw [getDataLoop_nil chunks_eq, List.append_nil]
      · rw [chunks_eq, List.append_nil]
        exact accounts
  | cons message rest ih =>
      obtain ⟨thin, deleted, shortened, turn⟩ := getDataLoop_cons orderly chunks_eq size taken
      by_cases large : size < taken.length + message.data.length
      · by_cases none : taken = []
        · subst none
          refine ⟨message.data.take size, _, ?_, shortened (message.data.drop size), rfl,
            accounts.shorten size, ?_⟩
          · intro times enough
            obtain ⟨times, rfl⟩ := Nat.exists_eq_succ_of_ne_zero (Nat.ne_zero_of_lt enough)
            rw [turn, if_pos large, if_pos rfl, List.nil_append]
          · intro empty
            rw [List.nil_append, List.take_eq_nil_iff] at empty
            rw [List.length_nil, Nat.zero_add] at large
            obtain zero | none := empty
            · omega
            · rw [none] at large
              exact absurd large (Nat.not_lt_zero _)
        · refine ⟨[], holder, ?_, orderly, rfl, ?_, ?_⟩
          · intro times enough
            obtain ⟨times, rfl⟩ := Nat.exists_eq_succ_of_ne_zero (Nat.ne_zero_of_lt enough)
            rw [turn, if_pos large, if_neg none, List.append_nil]
          · rw [chunks_eq, List.append_nil]
            exact accounts
          · intro empty
            rw [List.append_nil] at empty
            exact absurd empty none
      · obtain ⟨data, after, got, after_orderly, nodes_eq, after_accounts, emptied⟩ :=
          @ih _ _ (taken ++ message.data) deleted rfl accounts.delete
        refine ⟨message.data ++ data, after, ?_, after_orderly, nodes_eq, ?_, ?_⟩
        · intro times enough
          obtain ⟨times, rfl⟩ := Nat.exists_eq_succ_of_ne_zero (Nat.ne_zero_of_lt enough)
          rw [turn, if_neg large, got times (Nat.lt_of_succ_lt_succ enough), List.append_assoc]
        · rw [← List.append_assoc]
          exact after_accounts
        · rwa [← List.append_assoc]

/-- What holds of a queue throughout. -/
structure Record.Kept (record : Record ε) : Prop where
  orderly : record.holder.Orderly
  accounts : Accounts record.accepted record.returned record.holder.chunks
  nodup : (record.accepted.map Prod.fst).Nodup
  fresh : ∀ entry ∈ record.accepted, entry.1 < record.holder.nodes

namespace Record

variable {record : Record ε}

/-- A chunk is accepted in a new node. -/
theorem Kept.append (kept : record.Kept) {after : ClientHolder ε} (orderly : after.Orderly)
    (message : Message) (node_eq : message.node = record.holder.nodes)
    (nodes_eq : after.nodes = record.holder.nodes + 1)
    (chunks_eq : after.chunks = record.holder.chunks ++ [message]) :
    Kept { record with holder := after, accepted := record.accepted ++ [account message] } where
  orderly := orderly
  accounts := by
    dsimp only
    rw [chunks_eq]
    exact kept.accounts.append message
  nodup := by
    rw [List.map_append]
    refine kept.nodup.append (List.nodup_singleton _) ?_
    rw [List.disjoint_comm, List.map_singleton, List.singleton_disjoint]
    intro among
    obtain ⟨entry, accepted, same⟩ := List.mem_map.mp among
    exact absurd (same.trans node_eq) (kept.fresh entry accepted).ne
  fresh entry among := by
    show entry.1 < after.nodes
    rw [nodes_eq]
    obtain earlier | last := List.mem_append.mp among
    · exact (kept.fresh entry earlier).trans (Nat.lt_succ_self _)
    · rw [List.mem_singleton.mp last, account, node_eq]
      exact Nat.lt_succ_self _

theorem fst_replaceAccepted (node : Nat) (chunk : Octets) (entries : List (Nat × Octets)) :
    (entries.map (replaceAccepted node chunk)).map Prod.fst = entries.map Prod.fst := by
  rw [List.map_map]
  refine List.map_congr_left fun entry _ => ?_
  show (replaceAccepted node chunk entry).1 = entry.1
  rw [replaceAccepted]
  split
  · next same => exact same.symm
  · rfl

/-- A chunk is accepted in the place of another one. -/
theorem Kept.replace (kept : record.Kept) {after : ClientHolder ε} (orderly : after.Orderly)
    {front back : List Message} {old : Message} (named : old.thin ≠ []) (chunk : Octets)
    (nodes_eq : after.nodes = record.holder.nodes)
    (split : record.holder.chunks = front ++ old :: back)
    (chunks_eq : after.chunks = front ++ { old with data := chunk } :: back) :
    Kept { record with
      holder := after, accepted := record.accepted.map (replaceAccepted old.node chunk) } where
  orderly := orderly
  accounts := by
    have accounts := kept.accounts
    rw [split] at accounts
    dsimp only
    rw [chunks_eq]
    exact accounts.replace named kept.nodup chunk
  nodup := by
    rw [fst_replaceAccepted]
    exact kept.nodup
  fresh entry among := by
    have nodes := List.mem_map_of_mem (f := Prod.fst) among
    rw [fst_replaceAccepted] at nodes
    obtain ⟨earlier, accepted, same⟩ := List.mem_map.mp nodes
    show entry.1 < after.nodes
    rw [nodes_eq, ← same]
    exact kept.fresh earlier accepted

/-- `To_Buffer` accepts what `Data_Chunk` has framed. -/
theorem Kept.toBuffer (kept : record.Kept) (frames : Frames config sending record.holder) :
    ∃ after, ClientHolder.toBuffer config sending record.holder = .ok () after ∧
      Kept { record with
        holder := after, accepted := record.accept sending.thinId (framed config sending record.holder) } := by
  have orderly := kept.orderly
  have counted : Orderly
      { record.holder with chunkSent := sentAfter config sending record.holder } :=
    ⟨orderly.nodup, orderly.fresh, orderly.thin_iff⟩
  rw [accept]
  cases found : record.holder.chunks.find? fun message =>
      sending.thinId ≠ [] ∧ message.thin = sending.thinId with
  | none =>
      have missing : record.holder.thin.lookup sending.thinId = none := by
        rw [orderly.thin_eq_none, or_iff_not_imp_left]
        intro named message among same
        have refused := List.find?_eq_none.mp found message among
        exact refused (decide_eq_true ⟨named, same⟩)
      exact ⟨_, toBuffer_append frames missing, kept.append (counted.append missing)
        ⟨record.holder.nodes, framed config sending record.holder, sending.thinId⟩ rfl rfl rfl⟩
  | some old =>
      have chosen := List.find?_some found
      obtain ⟨named, same⟩ := of_decide_eq_true chosen
      have among := List.mem_of_find?_eq_some found
      obtain ⟨front, back, split⟩ := List.append_of_mem among
      obtain ⟨replaced, chunks_eq⟩ := counted.replace split (framed config sending record.holder)
      rw [same] at replaced chunks_eq
      refine ⟨_, toBuffer_replace orderly frames named among same, ?_⟩
      refine kept.replace replaced (same ▸ named) _ rfl split (chunks_eq.trans ?_)
      rw [same]

theorem Kept.step (kept : record.Kept) (call : Call δ) : (record.step config call).Kept := by
  cases call with
  | toBuffer sending =>
      rw [Record.step]
      by_cases frames : Frames config sending record.holder
      · obtain ⟨after, buffered, next⟩ := kept.toBuffer frames
        rw [dataChunk_ok frames, buffered]
        exact next
      · rw [dataChunk_error frames, toBuffer_error frames]
        exact kept
  | append data =>
      have missing : record.holder.thin.lookup [] = none :=
        kept.orderly.thin_eq_none.mpr (.inl rfl)
      have none_found : (record.holder.chunks.find? fun message =>
          ([] : Text) ≠ [] ∧ message.thin = []) = none := by
        rw [List.find?_eq_none]
        intro message _ same
        exact (of_decide_eq_true same).1 rfl
      rw [Record.step, accept, none_found]
      exact kept.append (kept.orderly.append missing) ⟨record.holder.nodes, data, []⟩ rfl rfl rfl
  | getData size =>
      obtain ⟨data, after, got, orderly, nodes_eq, accounts, -⟩ :=
        @getDataLoop_accounts _ _ _ _ [] _ size.val size.property kept.orderly rfl kept.accounts
      have got : ClientHolder.getData size record.holder = .ok data after :=
        got _ (Nat.lt_succ_self _)
      rw [Record.step, got]
      exact ⟨orderly, accounts, kept.nodup, fun entry among => nodes_eq ▸ kept.fresh entry among⟩

theorem Kept.foldl (kept : record.Kept) (calls : List (Call δ)) :
    (calls.foldl (Record.step config) record).Kept := by
  induction calls generalizing record with
  | nil => exact kept
  | cons call calls ih => exact ih (kept.step call)

theorem kept_of_empty {holder : ClientHolder ε} (no_chunks : holder.chunks = [])
    (no_thin : holder.thin = ∅) : Kept { holder } where
  orderly := by
    refine ⟨?_, ?_, fun thinId node => ?_⟩
    · rw [no_chunks]
      exact List.nodup_nil
    · rw [no_chunks]
      exact List.forall_mem_nil _
    · rw [no_thin, no_chunks, AList.lookup_empty]
      refine iff_of_false (by rintro ⟨⟩) ?_
      rintro ⟨-, message, among, -⟩
      exact List.not_mem_nil among
  accounts := by
    dsimp only
    rw [no_chunks]
    exact .whole [] []
  nodup := List.nodup_nil
  fresh := List.forall_mem_nil _

end Record

/-- The output queue of a client that has been registered: after any calls, the index is that of the
queued chunks, what has been returned and what is queued are the accepted chunks, an addition that is
framed is accepted, and `Get_Data` ends and returns something unless no octet is queued. -/
theorem outputQueue_of_calls (config : Config δ ε) (registration : Registration ε) (clock : Int)
    (calls : List (Call δ)) :
    let record := calls.foldl (Record.step config) { holder := registration.toHolder clock }
    Indexes record.holder ∧
      record.returned ++ record.holder.queued = record.accepted.flatMap Prod.snd ∧
      (∀ (sending : Sending δ) chunk counted,
        dataChunk config sending record.holder = .ok chunk counted →
          ∃ after, toBuffer config sending record.holder = .ok () after) ∧
      ∀ size : { size : Nat // 0 < size }, ∃ data after,
        (∀ times, record.holder.chunks.length < times →
          getDataLoop size times [] record.holder = .ok data after) ∧
        (data = [] → record.holder.queued = []) := by
  intro record
  have start := @Record.kept_of_empty ε (registration.toHolder clock) rfl rfl
  have kept : record.Kept := start.foldl calls
  refine ⟨kept.orderly.indexes, kept.accounts.conserved, ?_, ?_⟩
  · intro sending chunk counted framed
    by_cases frames : Frames config sending record.holder
    · obtain ⟨after, buffered, -⟩ := kept.toBuffer frames
      exact ⟨after, buffered⟩
    · rw [dataChunk_error frames] at framed
      cases framed
  · rintro ⟨size, positive⟩
    obtain ⟨data, after, got, -, -, accounts, emptied⟩ :=
      @getDataLoop_accounts _ _ _ _ [] _ size positive kept.orderly rfl kept.accounts
    refine ⟨data, after, got, ?_⟩
    rintro rfl
    have after_empty := accounts.conserved
    rw [emptied rfl, List.append_nil, List.flatMap_nil, List.append_nil,
      ← kept.accounts.conserved] at after_empty
    exact List.append_right_eq_self.mp after_empty.symm

end ClientHolder
end Push
end AdaWebServer

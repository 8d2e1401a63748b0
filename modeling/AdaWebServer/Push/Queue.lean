import AdaWebServer.Foundations.Protected
import AdaWebServer.Push.Holder

/-!
# The queue of a client

What the operations on a client make of its queue.  The index of the identities leads to the messages
that have one, and a client that is available has nothing in its queue.
-/

namespace AdaWebServer
namespace Push
namespace ClientHolder

open Http2 (Octets Text)
open Utils (hex)
open Protected

variable {δ ε : Type} {config : Config δ ε} {holder after : ClientHolder ε} {sending : Sending δ}

/-- The index of the identities corresponds to the list of chunks. -/
structure Orderly (holder : ClientHolder ε) : Prop where
  nodup : (holder.chunks.map Message.node).Nodup
  fresh : ∀ message ∈ holder.chunks, message.node < holder.nodes
  thin_iff : ∀ thinId node, holder.thin.lookup thinId = some node ↔
    thinId ≠ [] ∧ ∃ message ∈ holder.chunks, message.node = node ∧ message.thin = thinId

/-- A client that is available and has not failed has nothing in its queue. -/
def Idle (holder : ClientHolder ε) : Prop :=
  holder.phase = .available → holder.errmsg = [] → holder.chunks = []

/-- What no operation on a client changes. -/
structure SameClient (holder after : ClientHolder ε) : Prop where
  webSocket : after.webSocket = holder.webSocket
  kind : after.kind = holder.kind
  created : after.created = holder.created
  environment : after.environment = holder.environment
  groups : after.groups = holder.groups
  timeout : after.timeout = holder.timeout

theorem SameClient.refl (holder : ClientHolder ε) : SameClient holder holder :=
  ⟨rfl, rfl, rfl, rfl, rfl, rfl⟩

theorem SameClient.trans {middle : ClientHolder ε} (first : SameClient holder middle)
    (second : SameClient middle after) : SameClient holder after where
  webSocket := second.webSocket.trans first.webSocket
  kind := second.kind.trans first.kind
  created := second.created.trans first.created
  environment := second.environment.trans first.environment
  groups := second.groups.trans first.groups
  timeout := second.timeout.trans first.timeout

/-- The octets that are queued. -/
def queued (holder : ClientHolder ε) : Octets := holder.chunks.flatMap Message.data

/-! ## Framing -/

/-- How many parts have been framed once a message has been framed. -/
def sentAfter (config : Config δ ε) (sending : Sending δ) (holder : ClientHolder ε) : Nat :=
  if holder.kind = .multipart ∧ config.toStreamArray sending.data holder.environment ≠ [] then
    holder.chunkSent + 1
  else holder.chunkSent

/-- The message as it is framed. -/
def framed (config : Config δ ε) (sending : Sending δ) (holder : ClientHolder ε) : Octets :=
  let data := config.toStreamArray sending.data holder.environment
  if data = [] then []
  else match holder.kind with
    | .multipart =>
        (if holder.chunkSent = 0 then config.delimiter else []) ++
          (contentTypeHeader sending.contentType ++ newLine ++ newLine) ++ data ++
          (newLine ++ newLine ++ config.delimiter)
    | .chunked => hex data.length ++ newLine ++ data ++ newLine
    | .plain => data

/-- The numbers that framing computes are in their ranges. -/
def Frames (config : Config δ ε) (sending : Sending δ) (holder : ClientHolder ε) : Prop :=
  let data := config.toStreamArray sending.data holder.environment
  data = [] ∨ match holder.kind with
    | .multipart => holder.chunkSent < Http2.naturalLast
    | .chunked => data.length ≤ Http2.naturalLast
    | .plain => True

private theorem framePrefix_multipart {contentType : Text} {size : Nat}
    (kind : holder.kind = .multipart) (small : holder.chunkSent < Http2.naturalLast) :
    framePrefix config contentType size holder =
      .ok ((if holder.chunkSent = 0 then config.delimiter else []) ++
          (contentTypeHeader contentType ++ newLine ++ newLine))
        { holder with chunkSent := holder.chunkSent + 1 } := by
  obtain ⟨_, _, _, _, _, _, _, _, chunkSent, _, _, _, _⟩ := holder
  cases kind
  refine (if_pos small).trans ?_
  by_cases first : chunkSent = 0
  · subst first
    rfl
  · dsimp only
    rw [if_neg first, if_neg first, List.nil_append]

private theorem framePrefix_chunked {contentType : Text} {size : Nat}
    (kind : holder.kind = .chunked) (small : size ≤ Http2.naturalLast) :
    framePrefix config contentType size holder = .ok (hex size ++ newLine) holder := by
  obtain ⟨_, _, _, _, _, _, _, _, _, _, _, _, _⟩ := holder
  cases kind
  exact if_pos small

private theorem framePrefix_plain {contentType : Text} {size : Nat} (kind : holder.kind = .plain) :
    framePrefix config contentType size holder = .ok [] holder := by
  obtain ⟨_, _, _, _, _, _, _, _, _, _, _, _, _⟩ := holder
  cases kind
  rfl

theorem dataChunk_ok (frames : Frames config sending holder) :
    dataChunk config sending holder = .ok (framed config sending holder)
      { holder with chunkSent := sentAfter config sending holder } := by
  obtain ⟨_, _, kind, _, environment, _, _, _, _, _, _, _, _⟩ := holder
  rw [Frames] at frames
  rw [dataChunk, get_bind, framed, sentAfter]
  by_cases empty : config.toStreamArray sending.data environment = []
  · rw [if_neg (not_not_intro empty), if_pos empty, if_neg fun both => both.2 empty]
    rfl
  · have inside := frames.resolve_left empty
    rw [if_pos empty, if_neg empty]
    cases kind with
    | multipart =>
        rw [bind_returned (framePrefix_multipart rfl inside)]
        simp only [ne_eq, empty, not_false_eq_true, and_self, if_true]
        rfl
    | chunked =>
        rw [bind_returned (framePrefix_chunked rfl inside)]
        rfl
    | plain =>
        rw [bind_returned (framePrefix_plain rfl), List.nil_append]
        show EStateM.Result.ok (_ ++ []) _ = _
        rw [List.append_nil]
        rfl

theorem dataChunk_error (frames : ¬Frames config sending holder) :
    dataChunk config sending holder = .error (.constraintError .range) holder := by
  obtain ⟨_, _, kind, _, _, _, _, _, _, _, _, _, _⟩ := holder
  rw [Frames, not_or] at frames
  obtain ⟨nonempty, outside⟩ := frames
  rw [dataChunk, get_bind, if_pos nonempty]
  refine bind_raised ?_
  cases kind with
  | multipart => exact if_neg outside
  | chunked => exact if_neg outside
  | plain => exact absurd trivial outside

/-! ## Queueing -/

/-- A message has been queued, at the end or in the place of one with the same identity. -/
structure Buffers (config : Config δ ε) (sending : Sending δ) (holder after : ClientHolder ε) :
    Prop where
  same : SameClient holder after
  written : after.written = holder.written
  phase : after.phase = holder.phase
  errmsg : after.errmsg = holder.errmsg
  chunkSent : after.chunkSent = sentAfter config sending holder
  orderly : after.Orderly
  chunks : (∃ node, after.chunks =
      holder.chunks ++ [⟨node, framed config sending holder, sending.thinId⟩]) ∨
    ∃ front old back, holder.chunks = front ++ old :: back ∧ old.thin = sending.thinId ∧
      sending.thinId ≠ [] ∧
      after.chunks = front ++ ⟨old.node, framed config sending holder, sending.thinId⟩ :: back

theorem Orderly.thin_eq_none (orderly : holder.Orderly) {thinId : Text} :
    holder.thin.lookup thinId = none ↔
      thinId = [] ∨ ∀ message ∈ holder.chunks, message.thin ≠ thinId := by
  constructor
  · intro missing
    by_cases unnamed : thinId = []
    · exact .inl unnamed
    · refine .inr fun message among same => ?_
      have found := (orderly.thin_iff thinId message.node).mpr ⟨unnamed, message, among, rfl, same⟩
      rw [missing] at found
      cases found
  · intro missing
    cases found : holder.thin.lookup thinId with
    | none => rfl
    | some node =>
        obtain ⟨named, message, among, _, same⟩ := (orderly.thin_iff thinId node).mp found
        obtain unnamed | different := missing
        · exact absurd unnamed named
        · exact absurd same (different message among)

/-- A message at the end of the queue. -/
theorem Orderly.append (orderly : holder.Orderly) {data : Octets} {thinId : Text}
    (missing : holder.thin.lookup thinId = none) :
    Orderly { holder.append data thinId with
      thin := if thinId = [] then holder.thin else holder.thin.insert thinId holder.nodes } where
  nodup := by
    show ((holder.chunks ++ [_]).map Message.node).Nodup
    rw [List.map_append]
    refine orderly.nodup.append (List.nodup_singleton _) ?_
    simp only [List.map_cons, List.map_nil, List.disjoint_singleton, List.mem_map, not_exists]
    rintro message ⟨among, same⟩
    exact absurd same (orderly.fresh message among).ne
  fresh message among := by
    obtain earlier | last := List.mem_append.mp among
    · exact (orderly.fresh message earlier).trans (Nat.lt_succ_self _)
    · rw [List.mem_singleton.mp last]
      exact Nat.lt_succ_self _
  thin_iff other node := by
    show (if thinId = [] then holder.thin else holder.thin.insert thinId holder.nodes).lookup other =
      some node ↔ other ≠ [] ∧ ∃ message ∈ holder.chunks ++ [_], _
    simp only [List.mem_append, List.mem_singleton, or_and_right, exists_or, exists_eq_left]
    by_cases unnamed : thinId = []
    · rw [if_pos unnamed, orderly.thin_iff, and_congr_right_iff]
      intro named
      refine ⟨.inl, fun among => among.resolve_right ?_⟩
      rintro ⟨_, same⟩
      exact named (same.symm.trans unnamed)
    · rw [if_neg unnamed]
      by_cases same : other = thinId
      · subst same
        rw [AList.lookup_insert, Option.some_inj]
        constructor
        · intro node_eq
          exact ⟨unnamed, .inr ⟨node_eq, rfl⟩⟩
        · rintro ⟨_, ⟨message, among, _, named⟩ | ⟨node_eq, _⟩⟩
          · exact absurd named ((orderly.thin_eq_none.mp missing).resolve_left unnamed message among)
          · exact node_eq
      · rw [AList.lookup_insert_ne same, orderly.thin_iff, and_congr_right_iff]
        intro _
        exact ⟨.inl, fun among => among.resolve_right fun both => same both.2.symm⟩

/-- Another message in a node of the queue. -/
theorem Orderly.replace (orderly : holder.Orderly) {front back : List Message} {old : Message}
    (split : holder.chunks = front ++ old :: back) (data : Octets) :
    Orderly (holder.replaceElement old.node data old.thin) ∧
      (holder.replaceElement old.node data old.thin).chunks =
        front ++ ⟨old.node, data, old.thin⟩ :: back := by
  have nodup := orderly.nodup
  rw [split, List.map_append, List.map_cons, List.nodup_append] at nodup
  obtain ⟨_, later, apart⟩ := nodup
  have others : ∀ messages : List Message, (∀ message ∈ messages, message.node ≠ old.node) →
      messages.map (fun message =>
        if message.node = old.node then (⟨old.node, data, old.thin⟩ : Message) else message) =
        messages := by
    intro messages different
    conv_rhs => rw [← List.map_id messages]
    exact List.map_congr_left fun message among => if_neg (different message among)
  have chunks_eq : (holder.replaceElement old.node data old.thin).chunks =
      front ++ ⟨old.node, data, old.thin⟩ :: back := by
    rw [replaceElement, split, List.map_append, List.map_cons, if_pos rfl, others front,
      others back]
    · intro message among same
      exact (List.nodup_cons.mp later).1 (List.mem_map.mpr ⟨message, among, same⟩)
    · intro message among same
      exact apart _ (List.mem_map_of_mem among) _ List.mem_cons_self same
  have alike : ∀ property : Nat → Text → Prop,
      (∃ message ∈ (holder.replaceElement old.node data old.thin).chunks,
        property message.node message.thin) ↔
      ∃ message ∈ holder.chunks, property message.node message.thin := by
    intro property
    rw [chunks_eq, split]
    simp only [List.mem_append, List.mem_cons, or_and_right, exists_or, exists_eq_left]
  refine ⟨⟨?_, ?_, ?_⟩, chunks_eq⟩
  · rw [chunks_eq, List.map_append, List.map_cons]
    have nodup := orderly.nodup
    rwa [split, List.map_append, List.map_cons] at nodup
  · intro message among
    by_contra large
    obtain ⟨other, among', large'⟩ := (alike fun node _ => ¬node < holder.nodes).mp
      ⟨message, among, large⟩
    exact large' (orderly.fresh other among')
  · intro thinId node
    rw [alike fun other thin => other = node ∧ thin = thinId]
    exact orderly.thin_iff thinId node

/-- A message that replaces none is queued at the end. -/
theorem toBuffer_append (frames : Frames config sending holder)
    (missing : holder.thin.lookup sending.thinId = none) :
    toBuffer config sending holder = .ok ()
      { ({ holder with chunkSent := sentAfter config sending holder } : ClientHolder ε).append
          (framed config sending holder) sending.thinId with
        thin := if sending.thinId = [] then holder.thin else
          holder.thin.insert sending.thinId holder.nodes } := by
  rw [toBuffer, bind_returned (dataChunk_ok frames), get_bind]
  have none_found : (if sending.thinId = [] then none else holder.thin.lookup sending.thinId) = none := by
    rw [missing, ite_self]
  rw [none_found]
  by_cases unnamed : sending.thinId = []
  · rw [if_pos unnamed]
    simp only [unnamed, ne_eq, not_true_eq_false, if_false]
    rfl
  · rw [if_neg unnamed]
    simp only [unnamed, ne_eq, not_false_eq_true, if_true]
    rfl

/-- A message replaces the one that has its identity. -/
theorem toBuffer_replace (orderly : holder.Orderly) (frames : Frames config sending holder)
    (named : sending.thinId ≠ []) {old : Message} (among : old ∈ holder.chunks)
    (same : old.thin = sending.thinId) :
    toBuffer config sending holder = .ok ()
      (({ holder with chunkSent := sentAfter config sending holder } : ClientHolder ε).replaceElement
        old.node (framed config sending holder) sending.thinId) := by
  rw [toBuffer, bind_returned (dataChunk_ok frames), get_bind, if_neg named]
  have found := (orderly.thin_iff sending.thinId old.node).mpr ⟨named, old, among, rfl, same⟩
  rw [found]
  have reached : (holder.chunks.any fun message : Message => message.node = old.node) = true :=
    List.any_eq_true.mpr ⟨old, among, decide_eq_true rfl⟩
  exact congrFun (if_pos reached) _

/-- A message is queued. -/
theorem toBuffer_ok (orderly : holder.Orderly) (frames : Frames config sending holder) :
    ∃ after, toBuffer config sending holder = .ok () after ∧ Buffers config sending holder after := by
  let counted : ClientHolder ε := { holder with chunkSent := sentAfter config sending holder }
  have counted_orderly : counted.Orderly := ⟨orderly.nodup, orderly.fresh, orderly.thin_iff⟩
  cases found : holder.thin.lookup sending.thinId with
  | none =>
      exact ⟨_, toBuffer_append frames found, ⟨rfl, rfl, rfl, rfl, rfl, rfl⟩, rfl, rfl, rfl, rfl,
        counted_orderly.append found, .inl ⟨holder.nodes, rfl⟩⟩
  | some node =>
      obtain ⟨named, old, among, rfl, same⟩ := (orderly.thin_iff _ node).mp found
      obtain ⟨front, back, split⟩ := List.append_of_mem among
      obtain ⟨replaced, chunks_eq⟩ := counted_orderly.replace split (framed config sending holder)
      rw [same] at replaced chunks_eq
      exact ⟨_, toBuffer_replace orderly frames named among same, ⟨rfl, rfl, rfl, rfl, rfl, rfl⟩, rfl, rfl,
        rfl, rfl, replaced, .inr ⟨front, old, back, split, same, named, chunks_eq⟩⟩

theorem toBuffer_error (frames : ¬Frames config sending holder) :
    toBuffer config sending holder = .error (.constraintError .range) holder := by
  rw [toBuffer]
  exact bind_raised (dataChunk_error frames)

/-! ## Taking from the queue -/

/-- Some octets have been taken from the queue. -/
structure Takes (data : Octets) (holder after : ClientHolder ε) : Prop where
  same : SameClient holder after
  written : after.written = holder.written
  phase : after.phase = holder.phase
  errmsg : after.errmsg = holder.errmsg
  chunkSent : after.chunkSent = holder.chunkSent
  orderly : after.Orderly
  queued : data ++ after.queued = holder.queued

/-- The first message of the queue is forgotten, whether it is deleted or the rest of it stays. -/
theorem Orderly.forget_first (orderly : holder.Orderly) {message : Message} {rest : List Message}
    (split : holder.chunks = message :: rest) :
    ∃ thin, forget message holder = .ok () { holder with thin } ∧
      Orderly { holder with thin, chunks := rest } ∧
      ∀ data, Orderly { holder with thin, chunks := { message with data, thin := [] } :: rest } := by
  have nodup := orderly.nodup
  rw [split, List.map_cons] at nodup
  obtain ⟨apart, later⟩ := List.nodup_cons.mp nodup
  have among : message ∈ holder.chunks := split ▸ List.mem_cons_self
  have within : ∀ {other}, other ∈ rest → other ∈ holder.chunks :=
    fun among => split ▸ List.mem_cons_of_mem message among
  obtain ⟨thin, forgotten, thin_iff⟩ : ∃ thin : AList fun _ : Text => Nat,
      forget message holder = .ok () { holder with thin } ∧
      ∀ thinId node, thin.lookup thinId = some node ↔
        thinId ≠ [] ∧ ∃ other ∈ rest, other.node = node ∧ other.thin = thinId := by
    rw [forget]
    by_cases unnamed : message.thin = []
    · refine ⟨holder.thin, if_pos unnamed, fun thinId node => ?_⟩
      rw [orderly.thin_iff, split, and_congr_right_iff]
      intro named
      rw [List.exists_mem_cons_iff]
      refine or_iff_right ?_
      rintro ⟨_, same⟩
      exact named (same.symm.trans unnamed)
    · have kept := (orderly.thin_iff message.thin message.node).mpr
        ⟨unnamed, message, among, rfl, rfl⟩
      have known : message.thin ∈ holder.thin := AList.lookup_isSome.mp (by rw [kept]; rfl)
      refine ⟨holder.thin.erase message.thin, ?_, fun thinId node => ?_⟩
      · rw [if_neg unnamed, if_pos known]
      · by_cases same : thinId = message.thin
        · subst same
          rw [AList.lookup_erase]
          refine iff_of_false nofun ?_
          rintro ⟨named, other, also, _, same⟩
          have found := (orderly.thin_iff message.thin other.node).mpr
            ⟨named, other, within also, rfl, same⟩
          rw [kept, Option.some_inj] at found
          exact apart (List.mem_map.mpr ⟨other, also, found.symm⟩)
        · rw [AList.lookup_erase_ne same, orderly.thin_iff, split, and_congr_right_iff]
          intro _
          rw [List.exists_mem_cons_iff]
          exact or_iff_right fun both => same both.2.symm
  refine ⟨thin, forgotten, ⟨later, fun other also => orderly.fresh other (within also), thin_iff⟩,
    fun data => ⟨nodup, fun other also => ?_, fun thinId node => ?_⟩⟩
  · obtain first | also := List.mem_cons.mp also
    · rw [first]
      exact orderly.fresh message among
    · exact orderly.fresh other (within also)
  · show thin.lookup thinId = some node ↔ thinId ≠ [] ∧ ∃ other ∈ _ :: rest, _
    rw [thin_iff, and_congr_right_iff]
    intro named
    rw [List.exists_mem_cons_iff]
    exact (or_iff_right fun both => named both.2.symm).symm

theorem queued_cons {message : Message} {rest : List Message}
    (split : holder.chunks = message :: rest) :
    holder.queued = message.data ++ rest.flatMap Message.data := by
  rw [queued, split, List.flatMap_cons]

/-- A turn of the loop: the first message is cut, left or taken. -/
theorem getDataLoop_cons (orderly : holder.Orderly) {message : Message} {rest : List Message}
    (split : holder.chunks = message :: rest) (size : Nat) (taken : Octets) :
    ∃ thin, Orderly { holder with thin, chunks := rest } ∧
      (∀ data, Orderly { holder with thin, chunks := { message with data, thin := [] } :: rest }) ∧
      ∀ times, getDataLoop size (times + 1) taken holder =
        if size < taken.length + message.data.length then
          if taken = [] then
            .ok (message.data.take size) { holder with
              thin, chunks := { message with data := message.data.drop size, thin := [] } :: rest }
          else .ok taken holder
        else getDataLoop size times (taken ++ message.data) { holder with thin, chunks := rest } := by
  obtain ⟨thin, forgotten, deleted, shortened⟩ := orderly.forget_first split
  refine ⟨thin, deleted, shortened, fun times => ?_⟩
  rw [getDataLoop, get_bind, split]
  dsimp only
  by_cases large : size < taken.length + message.data.length
  · rw [if_pos large, if_pos large]
    by_cases none : taken = []
    · rw [if_pos none, if_pos none, bind_returned forgotten, modify_bind]
      rfl
    · rw [if_neg none, if_neg none]
      rfl
  · rw [if_neg large, if_neg large, bind_returned forgotten, modify_bind]

theorem getDataLoop_nil (split : holder.chunks = []) (size times : Nat) (taken : Octets) :
    getDataLoop size (times + 1) taken holder = .ok taken holder := by
  rw [getDataLoop, get_bind, split]
  rfl

theorem getDataLoop_spec {size times : Nat} {taken : Octets} (orderly : holder.Orderly)
    (enough : holder.chunks.length < times) :
    ∃ data after, getDataLoop size times taken holder = .ok (taken ++ data) after ∧
      Takes data holder after ∧ (taken ++ data = [] → 0 < size → after.chunks = []) := by
  induction times generalizing holder taken with
  | zero => exact absurd enough (Nat.not_lt_zero _)
  | succ times ih =>
      have untouched : Takes [] holder holder :=
        ⟨.refl holder, rfl, rfl, rfl, rfl, orderly, rfl⟩
      cases split : holder.chunks with
      | nil =>
          refine ⟨[], holder, ?_, untouched, fun _ _ => split⟩
          rw [getDataLoop_nil split, List.append_nil]
      | cons message rest =>
          obtain ⟨thin, deleted, shortened, turn⟩ := getDataLoop_cons orderly split size taken
          rw [turn]
          by_cases large : size < taken.length + message.data.length
          · rw [if_pos large]
            by_cases none : taken = []
            · subst none
              refine ⟨message.data.take size, _, if_pos rfl,
                ⟨⟨rfl, rfl, rfl, rfl, rfl, rfl⟩, rfl, rfl, rfl, rfl, shortened _, ?_⟩, ?_⟩
              · rw [queued_cons split, queued, List.flatMap_cons, ← List.append_assoc,
                  List.take_append_drop]
              · intro empty positive
                rw [List.nil_append, List.take_eq_nil_iff] at empty
                obtain zero | none := empty
                · omega
                · rw [none] at large
                  exact absurd large (Nat.not_lt_zero _)
            · refine ⟨[], holder, ?_, untouched, fun empty => absurd empty ?_⟩
              · rw [if_neg none, List.append_nil]
              · rwa [List.append_nil]
          · obtain ⟨data, after, got, takes, emptied⟩ := @ih _ (taken ++ message.data) deleted (by
              rw [split, List.length_cons] at enough
              exact Nat.lt_of_succ_lt_succ enough)
            refine ⟨message.data ++ data, after, ?_, ⟨⟨takes.same.1, takes.same.2, takes.same.3,
              takes.same.4, takes.same.5, takes.same.6⟩, takes.written, takes.phase, takes.errmsg,
              takes.chunkSent, takes.orderly, ?_⟩, ?_⟩
            · rw [if_neg large, ← List.append_assoc]
              exact got
            · rw [queued_cons split, List.append_assoc, takes.queued]
              rfl
            · rwa [← List.append_assoc]

/-- What is taken comes first in the queue, and nothing is taken only from a queue without octets. -/
theorem getData_spec {size : Nat} (positive : 0 < size) (orderly : holder.Orderly) :
    ∃ data after, getData size holder = .ok data after ∧ Takes data holder after ∧
      (data = [] → after.chunks = []) := by
  obtain ⟨data, after, got, takes, none⟩ := @getDataLoop_spec _ _ size _ [] orderly
    (Nat.lt_succ_self _)
  exact ⟨data, after, got, takes, fun empty => none empty positive⟩

/-! ## Sending -/

/-- The octets that are written for a message that goes directly to the socket. -/
def direct (config : Config δ ε) (sending : Sending δ) (holder : ClientHolder ε) : Octets :=
  if holder.webSocket then webSocketMessage (framed config sending holder)
  else framed config sending holder

/-- What a client that has been framed for is like. -/
def counted (config : Config δ ε) (sending : Sending δ) (holder : ClientHolder ε) :
    ClientHolder ε :=
  { holder with chunkSent := sentAfter config sending holder }

/-- The socket is ready, and it takes nothing. -/
def Refuses (behaviour : Behaviour) (holder : ClientHolder ε) : Prop :=
  (∃ events, behaviour.check = .ok events ∧ events.output = true) ∧
    holder.webSocket = false ∧ behaviour.accepts = 0

/-- What `Send_Data` makes of a client, with whether `Holder` is not null. -/
inductive Sends (config : Config δ ε) (behaviour : Behaviour) (sending : Sending δ)
    (holder : ClientHolder ε) : Bool → ClientHolder ε → Prop where
  /-- The client had failed. -/
  | gone (available : holder.phase = .available) (failed : holder.errmsg ≠ []) :
      Sends config behaviour sending holder true holder
  /-- There is something to be read from a WebSocket. -/
  | ignored {events : Events} (available : holder.phase = .available)
      (webSocket : holder.webSocket = true) (checked : behaviour.check = .ok events)
      (input : events.input = true) : Sends config behaviour sending holder false holder
  /-- The message has been written. -/
  | sent (available : holder.phase = .available) (alive : holder.errmsg = [])
      (empty : holder.chunks = []) (frames : Frames config sending holder) :
      Sends config behaviour sending holder false
        ((holder.counted config sending).write (holder.direct config sending))
  /-- The client has failed, maybe after a part of the message has been written. -/
  | failed {octets message : Octets} {chunkSent : Nat} (available : holder.phase = .available)
      (alive : holder.errmsg = []) (empty : holder.chunks = []) (cause : message ≠ [])
      (part : octets = [] ∨
        (holder.webSocket = true ∧ octets <+: holder.direct config sending)) :
      Sends config behaviour sending holder true
        { (holder.write octets).fail message with chunkSent }
  /-- A part of the message has been written, and the rest is queued. -/
  | started {count : Nat} (available : holder.phase = .available) (alive : holder.errmsg = [])
      (empty : holder.chunks = []) (frames : Frames config sending holder)
      (plain : holder.webSocket = false) (positive : 0 < count) :
      Sends config behaviour sending holder true
        { ((holder.counted config sending).write ((holder.framed config sending).take count)).append
            ((holder.framed config sending).drop count) [] with phase := .going }
  /-- The message is queued for a client that goes to the waiter. -/
  | queued {start after : ClientHolder ε} (available : holder.phase = .available)
      (alive : holder.errmsg = []) (empty : holder.chunks = [])
      (started : start = holder ∨ (∃ message, message ≠ [] ∧ start = holder.fail message) ∨
        (Refuses behaviour holder ∧ holder.framed config sending ≠ [] ∧
          start = holder.counted config sending))
      (buffers : Buffers config sending start after) :
      Sends config behaviour sending holder true { after with phase := .going }
  /-- The message is queued for a client that is on the way to the waiter or there. -/
  | buffered {after : ClientHolder ε} (busy : holder.phase ≠ .available)
      (buffers : Buffers config sending holder after) :
      Sends config behaviour sending holder false after

/-- A number that framing computes is out of its range, before or after the client has failed or the
message has been framed. -/
def Overflows (config : Config δ ε) (sending : Sending δ) (holder after : ClientHolder ε) : Prop :=
  (¬Frames config sending holder ∧
    (after = holder ∨ ∃ message, message ≠ [] ∧ after = holder.fail message)) ∨
  ¬Frames config sending (holder.counted config sending) ∧ after = holder.counted config sending

variable {behaviour : Behaviour}

theorem write_nil (holder : ClientHolder ε) : holder.write [] = holder := by
  rw [write, List.append_nil]

theorem toWaiter_cases (orderly : holder.Orderly) :
    (toWaiter config sending holder = .error (.constraintError .range) holder ∧
      ¬Frames config sending holder) ∨
    ∃ after, toWaiter config sending holder = .ok true { after with phase := .going } ∧
      Buffers config sending holder after := by
  rw [toWaiter]
  by_cases frames : Frames config sending holder
  · obtain ⟨after, queued, buffers⟩ := toBuffer_ok orderly frames
    refine .inr ⟨after, ?_, buffers⟩
    rw [bind_returned queued, modify_bind]
    rfl
  · exact .inl ⟨bind_raised (toBuffer_error frames), frames⟩

/-- What is returned or raised for a message. -/
def Concludes (config : Config δ ε) (behaviour : Behaviour) (sending : Sending δ)
    (holder : ClientHolder ε) (result : EStateM.Result Exn (ClientHolder ε) Bool) : Prop :=
  (∃ after, result = .error (.constraintError .range) after ∧
    Overflows config sending holder after) ∨
  ∃ kept after, result = .ok kept after ∧ Sends config behaviour sending holder kept after

theorem sendReady_concludes (available : holder.phase = .available) (alive : holder.errmsg = [])
    (empty : holder.chunks = []) (orderly : holder.Orderly)
    (ready : ∃ events, behaviour.check = .ok events ∧ events.output = true) :
    Concludes config behaviour sending holder (sendReady config behaviour sending holder) := by
  by_cases frames : Frames config sending holder
  · rw [sendReady, bind_returned (dataChunk_ok frames), get_bind]
    change Concludes config behaviour sending holder ((if holder.webSocket = true then _ else _ :
      Holding ε Bool) (holder.counted config sending))
    by_cases webSocket : holder.webSocket = true
    · have direct_eq : holder.direct config sending =
        webSocketMessage (holder.framed config sending) := if_pos webSocket
      rw [if_pos webSocket]
      cases failing : behaviour.failure with
      | some failure =>
          refine .inr ⟨true, _, rfl, .failed available alive empty failure.2 (.inr ⟨webSocket, ?_⟩)⟩
          rw [direct_eq]
          exact List.take_prefix _ _
      | none =>
          refine .inr ⟨false, _, rfl, ?_⟩
          rw [← direct_eq]
          exact .sent available alive empty frames
    · have direct_eq : holder.direct config sending = holder.framed config sending := if_neg webSocket
      rw [if_neg webSocket]
      cases failing : behaviour.failure with
      | some failure =>
          refine .inr ⟨true, _, rfl, ?_⟩
          have failed := @Sends.failed _ _ config behaviour sending _ _ _
            (sentAfter config sending holder) available alive empty failure.2 (.inl rfl)
          rwa [write_nil] at failed
      | none =>
          dsimp only
          rw [modify_bind]
          by_cases whole : (holder.framed config sending).length ≤ behaviour.accepts
          · rw [if_pos whole, List.take_of_length_le whole, ← direct_eq]
            exact .inr ⟨false, _, rfl, .sent available alive empty frames⟩
          · rw [if_neg whole]
            by_cases positive : 0 < behaviour.accepts
            · rw [if_pos positive]
              exact .inr ⟨true, _, rfl, .started available alive empty frames
                (Bool.eq_false_iff.mpr webSocket) positive⟩
            · have none : behaviour.accepts = 0 := Nat.eq_zero_of_not_pos positive
              rw [if_neg positive, none, List.take_zero, write_nil]
              have counted_orderly : (holder.counted config sending).Orderly :=
                ⟨orderly.nodup, orderly.fresh, orderly.thin_iff⟩
              rcases @toWaiter_cases _ _ config _ sending counted_orderly with
                ⟨raised, overflow⟩ | ⟨after, queued, buffers⟩
              · exact .inl ⟨_, raised, .inr ⟨overflow, rfl⟩⟩
              · refine .inr ⟨true, _, queued, .queued available alive empty (.inr (.inr
                  ⟨⟨ready, Bool.eq_false_iff.mpr webSocket, none⟩, ?_, rfl⟩)) buffers⟩
                intro nothing
                rw [nothing] at whole
                exact whole (Nat.zero_le _)
  · refine .inl ⟨holder, ?_, .inl ⟨frames, .inl rfl⟩⟩
    rw [sendReady]
    exact bind_raised (dataChunk_error frames)

theorem sendAvailable_concludes (available : holder.phase = .available)
    (alive : holder.errmsg = []) (empty : holder.chunks = []) (orderly : holder.Orderly) :
    Concludes config behaviour sending holder (sendAvailable config behaviour sending holder) := by
  rw [sendAvailable]
  have none : ∀ {message : Text}, message ≠ [] →
      Concludes config behaviour sending holder (.ok true (holder.fail message)) := by
    intro message cause
    have failed := @Sends.failed _ _ config behaviour sending _ _ _ holder.chunkSent available alive
      empty cause (.inl rfl)
    rw [write_nil] at failed
    exact .inr ⟨true, _, rfl, failed⟩
  cases checked : behaviour.check with
  | error failure =>
      dsimp only
      rw [modify_bind, get_bind]
      by_cases closed : (holder.fail failure.1).webSocket = true ∧ behaviour.noSocket = true
      · rw [if_pos closed]
        exact none failure.2
      · rw [if_neg closed]
        have failed_orderly : (holder.fail failure.1).Orderly :=
          ⟨orderly.nodup, orderly.fresh, orderly.thin_iff⟩
        rcases @toWaiter_cases _ _ config _ sending failed_orderly with
          ⟨raised, overflow⟩ | ⟨after, queued, buffers⟩
        · exact .inl ⟨_, raised, .inl ⟨overflow, .inr ⟨_, failure.2, rfl⟩⟩⟩
        · exact .inr ⟨true, _, queued, .queued available alive empty
            (.inr (.inl ⟨_, failure.2, rfl⟩)) buffers⟩
  | ok events =>
      dsimp only
      by_cases error : events.error = true
      · rw [if_pos error]
        exact none (List.append_ne_nil_of_left_ne_nil (by decide) _)
      rw [if_neg error]
      by_cases input : events.input = true
      · rw [if_pos input, get_bind]
        by_cases webSocket : holder.webSocket = true
        · rw [if_pos webSocket]
          exact .inr ⟨false, holder, rfl, .ignored available webSocket checked input⟩
        · rw [if_neg webSocket]
          cases behaviour.receive with
          | ok unexpect => exact none (List.append_ne_nil_of_left_ne_nil (by decide) _)
          | error failure => exact none failure.2
      rw [if_neg input]
      by_cases output : events.output = true
      · rw [if_pos output]
        exact sendReady_concludes available alive empty orderly ⟨events, checked, output⟩
      · rw [if_neg output]
        rcases @toWaiter_cases _ _ config _ sending orderly with
          ⟨raised, overflow⟩ | ⟨after, queued, buffers⟩
        · exact .inl ⟨_, raised, .inl ⟨overflow, .inl rfl⟩⟩
        · exact .inr ⟨true, _, queued, .queued available alive empty (.inl rfl) buffers⟩

/-- What `Send_Data` does for a client whose queue is in order. -/
theorem sendData_concludes (orderly : holder.Orderly) (idle : holder.Idle) :
    Concludes config behaviour sending holder (sendData config behaviour sending holder) := by
  rw [sendData, get_bind]
  by_cases available : holder.phase = .available
  · rw [if_pos available]
    by_cases alive : holder.errmsg = []
    · have empty := idle available alive
      rw [if_neg (not_not_intro alive), if_neg (not_not_intro empty)]
      exact sendAvailable_concludes available alive empty orderly
    · rw [if_pos alive]
      exact .inr ⟨true, holder, rfl, .gone available alive⟩
  · rw [if_neg available]
    by_cases frames : Frames config sending holder
    · obtain ⟨after, queued, buffers⟩ := toBuffer_ok orderly frames
      rw [bind_returned queued]
      exact .inr ⟨false, after, rfl, .buffered available buffers⟩
    · rw [bind_raised (toBuffer_error frames)]
      exact .inl ⟨holder, rfl, .inl ⟨frames, .inl rfl⟩⟩

/-- A change that leaves the queue as it is. -/
theorem Orderly.congr (orderly : holder.Orderly) (chunks : after.chunks = holder.chunks)
    (nodes : after.nodes = holder.nodes) (thin : after.thin = holder.thin) : after.Orderly where
  nodup := by
    rw [chunks]
    exact orderly.nodup
  fresh := by
    rw [chunks, nodes]
    exact orderly.fresh
  thin_iff := by
    rw [chunks, thin]
    exact orderly.thin_iff

theorem same_fail (holder : ClientHolder ε) (message : Text) :
    SameClient holder (holder.fail message) :=
  ⟨rfl, rfl, rfl, rfl, rfl, rfl⟩

theorem same_counted (config : Config δ ε) (sending : Sending δ) (holder : ClientHolder ε) :
    SameClient holder (holder.counted config sending) :=
  ⟨rfl, rfl, rfl, rfl, rfl, rfl⟩

/-- The queue stays in order, whatever is sent. -/
theorem Sends.keeps {kept : Bool} (sends : Sends config behaviour sending holder kept after)
    (orderly : holder.Orderly) (idle : holder.Idle) :
    after.Orderly ∧ after.Idle ∧ SameClient holder after := by
  cases sends with
  | gone => exact ⟨orderly, idle, .refl holder⟩
  | ignored => exact ⟨orderly, idle, .refl holder⟩
  | sent available alive empty =>
      exact ⟨orderly.congr rfl rfl rfl, fun _ _ => empty, rfl, rfl, rfl, rfl, rfl, rfl⟩
  | failed _ _ empty =>
      exact ⟨orderly.congr rfl rfl rfl, fun _ _ => empty, rfl, rfl, rfl, rfl, rfl, rfl⟩
  | @started count _ _ empty =>
      have missing : holder.thin.lookup [] = none := orderly.thin_eq_none.mpr (.inl rfl)
      have counted_orderly : ((holder.counted config sending).write
        ((holder.framed config sending).take count)).Orderly := orderly.congr rfl rfl rfl
      have appended := @Orderly.append _ _ counted_orderly ((holder.framed config sending).drop count) _
        missing
      exact ⟨appended.congr rfl rfl rfl, nofun, rfl, rfl, rfl, rfl, rfl, rfl⟩
  | @queued start after _ _ _ started buffers =>
      refine ⟨buffers.orderly.congr rfl rfl rfl, nofun, ?_⟩
      have same : SameClient holder after := by
        obtain rfl | ⟨_, _, rfl⟩ | ⟨_, _, rfl⟩ := started
        · exact buffers.same
        · exact (same_fail holder _).trans buffers.same
        · exact (same_counted config sending holder).trans buffers.same
      exact ⟨same.1, same.2, same.3, same.4, same.5, same.6⟩
  | buffered busy buffers =>
      refine ⟨buffers.orderly, fun available => absurd ?_ busy, buffers.same⟩
      rw [← buffers.phase, available]

theorem Overflows.keeps (overflows : Overflows config sending holder after)
    (orderly : holder.Orderly) (idle : holder.Idle) :
    after.Orderly ∧ after.Idle ∧ SameClient holder after := by
  obtain ⟨_, rfl | ⟨message, cause, rfl⟩⟩ | ⟨_, rfl⟩ := overflows
  · exact ⟨orderly, idle, .refl _⟩
  · exact ⟨orderly.congr rfl rfl rfl, fun _ none => absurd none cause, rfl, rfl, rfl, rfl, rfl, rfl⟩
  · exact ⟨orderly.congr rfl rfl rfl, idle, rfl, rfl, rfl, rfl, rfl, rfl⟩

end ClientHolder
end Push
end AdaWebServer

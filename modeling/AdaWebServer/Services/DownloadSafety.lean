import AdaWebServer.Services.DownloadTable

/-!
# Interleavings of the requests with the download manager

As long as no step removes a download that is being served, or so many others that a remembered
position is above the last one, and the downloads that have a socket come first, all downloads that
are being served are found, and the task does not fail.
-/

namespace AdaWebServer
namespace Services

open Http2 (Exn Text)
open Net Execution DataManager

variable {ρ σ : Type}

namespace Downloading

/-! ## What is to hold -/

/-- The copies in the set that the task has not yet done with in this round. -/
def remaining (state : Downloading ρ σ) : List (DownloadInformation ρ σ) :=
  match state.stage with
  | .waiting => state.set.dataOf
  | .serving position _ | .heading position _ _ | .sending position _ _
  | .removing position _ _ => state.set.dataOf.drop (position - 1)
  | .ready | .passed | .creating | .terminated | .failed _ => []

/-- The downloads that are being served: those with a socket, and the copies of the task. -/
def served (state : Downloading ρ σ) : List (DownloadInformation ρ σ) :=
  state.data.downloads.filter (·.socket.isSome) ++ state.remaining

/-- The count is the number of downloads, `Index` finds the downloads that are being served, the
positions of the set carry the information of their sockets, the number of transfers is bounded, and
the task has not failed. -/
structure Sound (config : DownloadConfig σ) (state : Downloading ρ σ) : Prop where
  counted : state.data.count = state.data.downloads.length
  found : ∀ info ∈ state.served, ∃ place entry, state.data.downloads[place]? = some entry ∧
    entry.uri = info.uri ∧
    indexFrom state.data.downloads info.uri info.index = .ok (place + 1)
  carried : ∀ position, 0 < position → position ≤ state.set.count → ∃ info socket,
    state.set.getData position = some info ∧ state.set.getSocket position = some socket ∧
    info.socket = some socket
  bounded : state.set.count ≤ config.maxConcurrentDownload
  running : (state.data.downloads.filter (·.socket.isSome)).length ≤ config.maxConcurrentDownload
  alive : ∀ exn, state.stage ≠ .failed exn

/-- A step removes a download that has a socket only when its transfer has ended, and does not
change the socket. -/
def Retains (state : Downloading ρ σ) (step : DownloadStep ρ σ) (next : Downloading ρ σ) : Prop :=
  ∀ info ∈ state.data.downloads, info.socket.isSome →
    (∃ entry ∈ next.data.downloads, entry.uri = info.uri ∧ entry.socket = info.socket) ∨
      step = .remove ∧ ∃ position last ended, state.stage = .removing position last ended ∧
        ended.uri = info.uri ∧ ended.socket = info.socket

/-- No download that is being served expires, or remembers a position above those that are left by
a removal; a request does not start a download that has a socket; and a set is created from at least
one download, from those without a socket after those with one. -/
def Careful (config : DownloadConfig σ) (state : Downloading ρ σ) : DownloadStep ρ σ → Prop
  | .get _ uri clock =>
      let downloads := state.data.downloads
      let old := oldEntries clock downloads.length downloads
      (∀ info ∈ old, info.socket = none) ∧
        (∀ info ∈ downloads, info.socket.isSome → info.uri ≠ uri →
          info.index + old.length ≤ downloads.length) ∧
        ∀ info ∈ state.remaining, info.index + old.length ≤ downloads.length
  | .update caller _ =>
      ∀ info, state.callers caller = .holding info →
        ∀ entry ∈ state.data.downloads, entry.uri = info.uri → entry.socket = none
  | .createSet =>
      state.data.downloads ≠ [] ∧
        (state.data.downloads.take config.maxConcurrentDownload).Pairwise fun earlier later =>
          later.socket.isSome → earlier.socket.isSome
  | .remove =>
      ∀ position last ended, state.stage = .removing position last ended →
        ∀ info ∈ state.served, info.uri ≠ ended.uri → info.index < state.data.downloads.length
  | _ => True

instance (caller : Caller ρ σ) (property : DownloadInformation ρ σ → Prop)
    [DecidablePred property] : Decidable (∀ info, caller = .holding info → property info) :=
  match caller with
  | .holding info => decidable_of_iff (property info)
      ⟨fun holds _ is => by cases is; exact holds, fun all => all info rfl⟩
  | .idle | .numbered _ _ _ _ => isTrue fun _ is => by cases is

instance (stage : ManagerStage ρ σ) (property : DownloadInformation ρ σ → Prop)
    [DecidablePred property] :
    Decidable (∀ position last info, stage = .removing position last info → property info) :=
  match stage with
  | .removing position last info => decidable_of_iff (property info)
      ⟨fun holds _ _ _ is => by cases is; exact holds, fun all => all position last info rfl⟩
  | .ready | .passed | .creating | .waiting | .serving _ _ | .heading _ _ _ | .sending _ _ _
  | .terminated | .failed _ => isTrue fun _ _ _ is => by cases is

instance [DecidableEq ρ] [DecidableEq σ] (config : DownloadConfig σ) (state : Downloading ρ σ)
    (step : DownloadStep ρ σ) : Decidable (Careful config state step) := by
  unfold Careful
  match step with
  | .getUid _ _ _ _ | .get _ _ _ | .insert _ _ | .update _ _ | .setShutdown | .ready | .shutdown
  | .createSet | .wait _ | .serve | .sendHeader | .sendData _ | .remove => infer_instance

/-! ## The invariant -/

/-- No download or request has a key with this number. -/
def Unused (uid : Nat) (downloads : List (DownloadInformation ρ σ)) (callers : Nat → Caller ρ σ) :
    Prop :=
  ∀ path, keyUri path uid ∉ downloads.map (·.uri) ∧
    ∀ caller info, callers caller = .holding info → info.uri ≠ keyUri path uid

/-- What a request holds remembers a position that is not before its own. -/
structure Held (config : DownloadConfig σ) (downloads : List (DownloadInformation ρ σ))
    (info : DownloadInformation ρ σ) : Prop where
  behind : ∀ place entry, downloads[place]? = some entry → entry.uri = info.uri →
    place < info.index ∧ place < config.maxConcurrentDownload
  described : ∀ socket, info.socket = some socket → 0 ≤ config.getFd socket

/-- The requests. -/
structure Requests (config : DownloadConfig σ) (uid : Nat)
    (downloads : List (DownloadInformation ρ σ)) (callers : Nat → Caller ρ σ) : Prop where
  unused : ∀ later, uid < later → Unused later downloads callers
  numbered : ∀ caller number uri name resource,
    callers caller = .numbered number uri name resource →
      number ≤ uid ∧ Unused number downloads callers
  distinct : ∀ first second number uri name resource uri' name' resource',
    callers first = .numbered number uri name resource →
      callers second = .numbered number uri' name' resource' → first = second
  held : ∀ caller info, callers caller = .holding info → Held config downloads info

/-- The socket set in a round of the task, with the copies from a position on still to be done. -/
def Round (config : DownloadConfig σ) (downloads : List (DownloadInformation ρ σ))
    (set : SocketSet σ (DownloadInformation ρ σ)) (position : Nat) : Prop :=
  ∃ pairs : List (σ × DownloadInformation ρ σ), set.Filled config.getFd pairs ∧
    pairs.length ≤ config.maxConcurrentDownload ∧
    (∀ pair ∈ pairs, pair.2.socket = some pair.1) ∧ (pairs.map (·.2.uri)).Nodup ∧
    ∀ pair ∈ pairs.drop (position - 1), Serves downloads pair.2

/-- The copy that is being done, but for the mark of the header. -/
def Current (set : SocketSet σ (DownloadInformation ρ σ)) (position last : Nat)
    (info : DownloadInformation ρ σ) : Prop :=
  position ≤ last ∧ ∃ copy, set.getData position = some copy ∧ info.uri = copy.uri ∧
    info.index = copy.index ∧ info.socket = copy.socket

/-- Where the task is, and its set. -/
def Staged (config : DownloadConfig σ) (downloads : List (DownloadInformation ρ σ))
    (set : SocketSet σ (DownloadInformation ρ σ)) : ManagerStage ρ σ → Prop
  | .ready | .passed | .creating | .terminated => set.Filled config.getFd []
  | .waiting => Round config downloads set 1
  | .serving position last => 0 < position ∧ last = set.count ∧ Round config downloads set position
  | .heading position last info | .sending position last info | .removing position last info =>
      0 < position ∧ last = set.count ∧ Round config downloads set position ∧
        Current set position last info
  | .failed _ => False

/-- The protected object, the requests and the task. -/
structure Invariant (config : DownloadConfig σ) (state : Downloading ρ σ) : Prop where
  counted : state.data.count = state.data.downloads.length
  table : Orderly config state.data.downloads
  requests : Requests config state.data.uid state.data.downloads state.callers
  staged : Staged config state.data.downloads state.set state.stage

variable {config : DownloadConfig σ} {state : Downloading ρ σ}
  {downloads after : List (DownloadInformation ρ σ)} {callers : Nat → Caller ρ σ} {uid : Nat}
  {set : SocketSet σ (DownloadInformation ρ σ)}

theorem invariant_initially : Invariant config ({} : Downloading ρ σ) where
  counted := rfl
  table :=
    { keys := List.nodup_nil
      entries := by
        intro place info socket here
        cases here }
  requests :=
    { unused := fun _ _ _ => ⟨List.not_mem_nil, fun _ _ is => by cases is⟩
      numbered := fun _ _ _ _ _ is => by cases is
      distinct := fun _ _ _ _ _ _ _ _ _ is => by cases is
      held := fun _ _ is => by cases is }
  staged := SocketSet.filled_none

/-! ### The requests -/

theorem Held.sublist {info : DownloadInformation ρ σ} (held : Held config downloads info)
    (fewer : (after.map (·.uri)).Sublist (downloads.map (·.uri))) : Held config after info where
  behind := by
    intro place entry here key
    obtain ⟨old, old_eq⟩ := List.sublist_iff_exists_orderEmbedding_getElem?_eq.mp fewer
    have at_old := old_eq place
    rw [List.getElem?_map, here, Option.map_some, List.getElem?_map] at at_old
    obtain ⟨before, there, same⟩ := Option.map_eq_some_iff.mp at_old.symm
    have le : place ≤ old place := old.strictMono.le_apply
    obtain ⟨behind, first⟩ := held.behind _ before there (same.trans key)
    exact ⟨le.trans_lt behind, le.trans_lt first⟩
  described := held.described

theorem Unused.sublist (unused : Unused uid downloads callers)
    (fewer : (after.map (·.uri)).Sublist (downloads.map (·.uri))) : Unused uid after callers :=
  fun path => ⟨fun among => (unused path).1 (fewer.subset among), (unused path).2⟩

/-- Downloads are removed or replaced by others with the same key. -/
theorem Requests.sublist (requests : Requests config uid downloads callers)
    (fewer : (after.map (·.uri)).Sublist (downloads.map (·.uri))) :
    Requests config uid after callers where
  unused later above := (requests.unused later above).sublist fewer
  numbered caller number uri name resource is :=
    ⟨(requests.numbered caller number uri name resource is).1,
      (requests.numbered caller number uri name resource is).2.sublist fewer⟩
  distinct := requests.distinct
  held caller info is := (requests.held caller info is).sublist fewer

theorem Unused.idle (unused : Unused uid downloads callers) (caller : Nat) :
    Unused uid downloads (Function.update callers caller .idle) := by
  refine fun path => ⟨(unused path).1, fun other info is => ?_⟩
  rw [Function.update_apply] at is
  split_ifs at is
  exact (unused path).2 other info is

theorem Requests.idle (requests : Requests config uid downloads callers) (caller : Nat) :
    Requests config uid downloads (Function.update callers caller .idle) where
  unused later above := (requests.unused later above).idle caller
  numbered other number uri name resource is := by
    rw [Function.update_apply] at is
    split_ifs at is
    obtain ⟨below, unused⟩ := requests.numbered other number uri name resource is
    exact ⟨below, unused.idle caller⟩
  distinct first second number uri name resource uri' name' resource' is_first is_second := by
    rw [Function.update_apply] at is_first is_second
    split_ifs at is_first is_second
    exact requests.distinct first second number _ _ _ _ _ _ is_first is_second
  held other info is := by
    rw [Function.update_apply] at is
    split_ifs at is
    exact requests.held other info is

theorem Unused.numbered (unused : Unused uid downloads callers) (caller number : Nat)
    (uri name : Text) (resource : ρ) :
    Unused uid downloads (Function.update callers caller (.numbered number uri name resource)) := by
  refine fun path => ⟨(unused path).1, fun other info is => ?_⟩
  rw [Function.update_apply] at is
  split_ifs at is
  exact (unused path).2 other info is

/-- A request gets the next number. -/
theorem Requests.number (requests : Requests config uid downloads callers) (caller : Nat)
    (uri name : Text) (resource : ρ) :
    Requests config (uid + 1) downloads
      (Function.update callers caller (.numbered (uid + 1) uri name resource)) where
  unused later above :=
    (requests.unused later (Nat.lt_of_succ_lt above)).numbered caller _ _ _ _
  numbered other number uri' name' resource' is := by
    rw [Function.update_apply] at is
    split_ifs at is with same
    · cases is
      exact ⟨le_rfl, (requests.unused _ (Nat.lt_succ_self uid)).numbered caller _ _ _ _⟩
    · obtain ⟨below, unused⟩ := requests.numbered other number uri' name' resource' is
      exact ⟨Nat.le_succ_of_le below, unused.numbered caller _ _ _ _⟩
  distinct first second number _ _ _ _ _ _ is_first is_second := by
    rw [Function.update_apply] at is_first is_second
    split_ifs at is_first is_second with here there there
    · exact here.trans there.symm
    · cases is_first
      have := (requests.numbered second _ _ _ _ is_second).1
      omega
    · cases is_second
      have := (requests.numbered first _ _ _ _ is_first).1
      omega
    · exact requests.distinct first second number _ _ _ _ _ _ is_first is_second
  held other info is := by
    rw [Function.update_apply] at is
    split_ifs at is
    exact requests.held other info is

/-- The download that a request has built is inserted. -/
theorem Requests.insert (requests : Requests config uid downloads callers) {caller number : Nat}
    {uri name : Text} {resource : ρ} (is : callers caller = .numbered number uri name resource)
    {info : DownloadInformation ρ σ} (key : info.uri = keyUri uri number) :
    Requests config uid (downloads ++ [info]) (Function.update callers caller .idle) := by
  obtain ⟨below, unused⟩ := requests.numbered caller number uri name resource is
  have other_unused : ∀ {other}, other ≠ number → Unused other downloads callers →
      Unused other (downloads ++ [info]) (Function.update callers caller .idle) := by
    intro other different free path
    refine ⟨?_, (free.idle caller path).2⟩
    rw [List.map_append, List.map_singleton, List.mem_append, List.mem_singleton]
    rintro (among | same)
    · exact (free path).1 among
    · exact different (keyUri_uid (same.trans key))
  refine ⟨?_, ?_, (requests.idle caller).distinct, ?_⟩
  · intro later above
    exact other_unused (by omega) (requests.unused later above)
  · intro other number' uri' name' resource' is_other
    rw [Function.update_apply] at is_other
    split_ifs at is_other with same
    obtain ⟨below', unused'⟩ := requests.numbered other number' uri' name' resource' is_other
    refine ⟨below', other_unused ?_ unused'⟩
    rintro rfl
    exact same (requests.distinct other caller _ _ _ _ _ _ _ is_other is)
  · intro other held is_held
    have before := (requests.idle caller).held other held is_held
    rw [Function.update_apply] at is_held
    split_ifs at is_held
    refine ⟨?_, before.described⟩
    intro place entry here same
    rcases Nat.lt_or_ge place downloads.length with within | above
    · exact before.behind place entry ((List.getElem?_append_left within).symm.trans here) same
    · rw [List.getElem?_append_right above] at here
      obtain rfl := List.mem_singleton.mp (List.mem_of_getElem? here)
      exact absurd (same.symm.trans key) ((unused uri).2 other held is_held)

/-- A request holds the download that `Get` has returned. -/
theorem Requests.hold (requests : Requests config uid downloads callers) (caller : Nat)
    {info : DownloadInformation ρ σ} (known : info.uri ∈ downloads.map (·.uri))
    (held : Held config downloads info) :
    Requests config uid downloads (Function.update callers caller (.holding info)) := by
  have unused : ∀ {number}, Unused number downloads callers →
      Unused number downloads (Function.update callers caller (.holding info)) := by
    refine fun unused path => ⟨(unused path).1, fun other held is => ?_⟩
    rw [Function.update_apply] at is
    split_ifs at is
    · cases is
      intro same
      exact (unused path).1 (same ▸ known)
    · exact (unused path).2 other held is
  refine ⟨fun later above => unused (requests.unused later above), ?_, ?_, ?_⟩
  · intro other number uri name resource is
    rw [Function.update_apply] at is
    split_ifs at is
    obtain ⟨below, free⟩ := requests.numbered other number uri name resource is
    exact ⟨below, unused free⟩
  · intro first second number _ _ _ _ _ _ is_first is_second
    rw [Function.update_apply] at is_first is_second
    split_ifs at is_first is_second
    exact requests.distinct first second number _ _ _ _ _ _ is_first is_second
  · intro other info' is
    rw [Function.update_apply] at is
    split_ifs at is
    · cases is
      exact held
    · exact requests.held other info' is

/-! ### The rounds of the task -/

theorem Round.kept {position : Nat} (round : Round config downloads set position)
    (serves : ∀ info ∈ set.dataOf.drop (position - 1), Serves downloads info →
      Serves after info) : Round config after set position := by
  obtain ⟨pairs, filled, bounded, carried, keys, served⟩ := round
  refine ⟨pairs, filled, bounded, carried, keys, fun pair among => serves _ ?_ (served pair among)⟩
  rw [filled.dataOf, ← List.map_drop]
  exact List.mem_map_of_mem among

/-- The vector changes, and what is left of the round is still served. -/
theorem Staged.kept {stage : ManagerStage ρ σ} (staged : Staged config downloads set stage)
    (serves : ∀ info ∈ ({ stage, set } : Downloading ρ σ).remaining, Serves downloads info →
      Serves after info) : Staged config after set stage := by
  cases stage with
  | ready => exact staged
  | passed => exact staged
  | creating => exact staged
  | terminated => exact staged
  | waiting => exact Round.kept staged serves
  | serving position last => exact ⟨staged.1, staged.2.1, staged.2.2.kept serves⟩
  | heading position last info =>
      exact ⟨staged.1, staged.2.1, staged.2.2.1.kept serves, staged.2.2.2⟩
  | sending position last info =>
      exact ⟨staged.1, staged.2.1, staged.2.2.1.kept serves, staged.2.2.2⟩
  | removing position last info =>
      exact ⟨staged.1, staged.2.1, staged.2.2.1.kept serves, staged.2.2.2⟩
  | failed exn => exact staged

theorem Round.serves {position : Nat} (round : Round config downloads set position)
    {info : DownloadInformation ρ σ} (among : info ∈ set.dataOf.drop (position - 1)) :
    Serves downloads info := by
  obtain ⟨pairs, filled, _, _, _, served⟩ := round
  rw [filled.dataOf, ← List.map_drop] at among
  obtain ⟨pair, left, rfl⟩ := List.mem_map.mp among
  exact served pair left

/-- What is left of the round is served. -/
theorem Staged.serves (staged : Staged config downloads state.set state.stage)
    {info : DownloadInformation ρ σ} (among : info ∈ state.remaining) : Serves downloads info := by
  obtain ⟨data, callers, stage, set⟩ := state
  cases stage with
  | ready => cases among
  | passed => cases among
  | creating => cases among
  | terminated => cases among
  | failed exn => cases among
  | waiting => exact Round.serves staged among
  | serving position last => exact staged.2.2.serves among
  | heading position last info => exact staged.2.2.1.serves among
  | sending position last info => exact staged.2.2.1.serves among
  | removing position last info => exact staged.2.2.1.serves among

theorem Round.later {position : Nat} (round : Round config downloads set position) :
    Round config downloads set (position + 1) := by
  obtain ⟨pairs, filled, bounded, carried, keys, served⟩ := round
  refine ⟨pairs, filled, bounded, carried, keys, fun pair among => served pair ?_⟩
  exact ((List.drop_sublist_drop_left pairs (Nat.sub_le_sub_right (Nat.le_succ position) 1)).subset
    among)

/-- What is at a position of a round. -/
theorem Round.at_position {position : Nat} (round : Round config downloads set position)
    (positive : 0 < position) (within : position ≤ set.count) :
    ∃ copy, set.getData position = some copy ∧
      copy ∈ set.dataOf.drop (position - 1) ∧ Serves downloads copy ∧
      ∀ other ∈ set.dataOf.drop position, other.uri ≠ copy.uri := by
  obtain ⟨pairs, filled, _, _, keys, served⟩ := round
  obtain ⟨place, rfl⟩ := Nat.exists_eq_succ_of_ne_zero positive.ne'
  rw [filled.count] at within
  have split : pairs.drop place = pairs[place] :: pairs.drop (place + 1) :=
    List.drop_eq_getElem_cons within
  have here := List.getElem?_eq_getElem within
  rw [Nat.succ_eq_add_one, Nat.add_sub_cancel] at served ⊢
  refine ⟨pairs[place].2, (filled.record here).2, ?_, served _ ?_, ?_⟩
  · rw [filled.dataOf, ← List.map_drop, split]
    exact List.mem_cons_self
  · rw [split]
    exact List.mem_cons_self
  · intro other among
    rw [filled.dataOf, ← List.map_drop] at among
    obtain ⟨pair, later, rfl⟩ := List.mem_map.mp among
    have distinct := keys.sublist ((List.drop_sublist place pairs).map _)
    rw [split, List.map_cons, List.nodup_cons] at distinct
    intro same
    exact distinct.1 (List.mem_map.mpr ⟨pair, later, same⟩)

/-- The sockets of downloads, each with its download. -/
def pairsOf (downloads : List (DownloadInformation ρ σ)) : List (σ × DownloadInformation ρ σ) :=
  downloads.filterMap fun info => info.socket.map (·, info)

theorem mem_pairsOf {pair : σ × DownloadInformation ρ σ} (among : pair ∈ pairsOf downloads) :
    pair.2 ∈ downloads ∧ pair.2.socket = some pair.1 := by
  obtain ⟨info, in_downloads, paired⟩ := List.mem_filterMap.mp among
  obtain ⟨socket, has_socket, rfl⟩ := Option.map_eq_some_iff.mp paired
  exact ⟨in_downloads, has_socket⟩

theorem pairsOf_sublist (downloads : List (DownloadInformation ρ σ)) :
    ((pairsOf downloads).map Prod.snd).Sublist downloads := by
  induction downloads with
  | nil => exact .slnil
  | cons info rest ih =>
      cases has_socket : info.socket with
      | none =>
          rw [pairsOf, List.filterMap_cons_none (by rw [has_socket]; rfl)]
          exact ih.cons info
      | some socket =>
          rw [pairsOf, List.filterMap_cons_some (b := (socket, info)) (by rw [has_socket]; rfl)]
          exact ih.cons_cons info

private theorem createSetFrom_none {getFd : σ → Int} {position : Nat}
    (none : ∀ info ∈ downloads, info.socket = none) :
    createSetFrom getFd position downloads set = .ok () set := by
  induction downloads generalizing position with
  | nil => rfl
  | cons info rest ih =>
      have here := none info List.mem_cons_self
      rw [createSetFrom, here]
      exact ih fun other among => none other (List.mem_cons_of_mem info among)

/-- The sockets are added with the information of their downloads if they come first. -/
private theorem createSetFrom_eq {getFd : σ → Int}
    {pairs : List (σ × DownloadInformation ρ σ)} (filled : set.Filled getFd pairs)
    (first : downloads.Pairwise fun earlier later => later.socket.isSome → earlier.socket.isSome)
    (described : ∀ info ∈ downloads, ∀ socket, info.socket = some socket → 0 ≤ getFd socket) :
    ∃ next, createSetFrom getFd (pairs.length + 1) downloads set = .ok () next ∧
      next.Filled getFd (pairs ++ pairsOf downloads) := by
  induction downloads generalizing set pairs with
  | nil => exact ⟨set, rfl, by rwa [pairsOf, List.filterMap_nil, List.append_nil]⟩
  | cons info rest ih =>
      rw [List.pairwise_cons] at first
      cases has_socket : info.socket with
      | none =>
          have no_socket : ∀ other ∈ info :: rest, other.socket = none := by
            intro other among
            rcases List.mem_cons.mp among with rfl | later
            · exact has_socket
            · by_contra some
              have := first.1 other later (Option.ne_none_iff_isSome.mp some)
              rw [has_socket] at this
              cases this
          have no_pairs : pairsOf (info :: rest) = [] := by
            rw [pairsOf, List.filterMap_eq_nil_iff]
            intro other among
            rw [no_socket other among]
            rfl
          rw [no_pairs, List.append_nil]
          exact ⟨set, createSetFrom_none no_socket, filled⟩
      | some socket =>
          obtain ⟨added, added_eq, next, next_eq, next_filled⟩ := filled.add
            (described info List.mem_cons_self socket has_socket) info fun event => event = .output
          obtain ⟨final, final_eq, final_filled⟩ := ih next_filled first.2
            fun other among => described other (List.mem_cons_of_mem info among)
          have pairs_eq : pairsOf (info :: rest) = (socket, info) :: pairsOf rest := by
            rw [pairsOf, List.filterMap_cons_some (b := (socket, info)) (by rw [has_socket]; rfl)]
            rfl
          refine ⟨final, ?_, ?_⟩
          · rw [createSetFrom, has_socket]
            simp only [bind, EStateM.bind, added_eq, next_eq]
            rwa [List.length_append, List.length_singleton] at final_eq
          · rw [pairs_eq]
            rwa [List.append_assoc, List.singleton_append] at final_filled

/-- `Create_Set` starts a round. -/
theorem Round.create (orderly : Orderly config downloads) (empty : set.Filled config.getFd [])
    (some_download : downloads ≠ [])
    (first : (downloads.take config.maxConcurrentDownload).Pairwise fun earlier later =>
      later.socket.isSome → earlier.socket.isSome) :
    ∃ next, createSet config.getFd config.maxConcurrentDownload downloads set = .ok () next ∧
      Round config downloads next 1 := by
  have taken : downloads.take (min config.maxConcurrentDownload downloads.length) =
      downloads.take config.maxConcurrentDownload := by
    rw [List.take_eq_take_iff, min_assoc, min_self]
  have served : ∀ info ∈ downloads, ∀ socket, info.socket = some socket →
      0 ≤ config.getFd socket ∧ Serves downloads info := by
    intro info among socket has_socket
    obtain ⟨place, here⟩ := List.mem_iff_getElem?.mp among
    exact ⟨(orderly.entries place info socket here has_socket).2.2.2,
      orderly.serves here has_socket⟩
  obtain ⟨next, next_eq, filled⟩ := createSetFrom_eq empty first
    fun info among socket has_socket =>
      (served info (List.mem_of_mem_take among) socket has_socket).1
  rw [List.nil_append] at filled
  refine ⟨next, ?_, _, filled, ?_, ?_, ?_, ?_⟩
  · have not_empty : downloads.length ≠ 0 := fun zero => some_download (List.length_eq_zero_iff.mp zero)
    simp only [createSet, if_neg not_empty, taken]
    exact next_eq
  · exact (List.length_filterMap_le _ _).trans (List.length_take_le _ _)
  · exact fun pair among => (mem_pairsOf among).2
  · have fewer := (pairsOf_sublist (downloads.take config.maxConcurrentDownload)).trans
      (List.take_sublist _ _)
    have keys := orderly.keys.sublist (fewer.map (·.uri))
    rwa [List.map_map] at keys
  · intro pair among
    obtain ⟨in_taken, has_socket⟩ := mem_pairsOf (List.mem_of_mem_drop among)
    exact (served pair.2 (List.mem_of_mem_take in_taken) pair.1 has_socket).2

/-! ### The steps -/

theorem retains_of_eq {step : DownloadStep ρ σ} {next : Downloading ρ σ}
    (same : next.data.downloads = state.data.downloads) : Retains state step next :=
  fun info among _ => .inl ⟨info, same ▸ among, rfl, rfl⟩

theorem retains_of_kept {step : DownloadStep ρ σ} {next : Downloading ρ σ}
    (kept : ∀ place info socket, state.data.downloads[place]? = some info →
      info.socket = some socket → Kept next.data.downloads place info) : Retains state step next := by
  intro info among is_some
  obtain ⟨place, here⟩ := List.mem_iff_getElem?.mp among
  obtain ⟨socket, has_socket⟩ := Option.isSome_iff_exists.mp is_some
  obtain ⟨_, other, _, there, key, same⟩ := kept place info socket here has_socket
  exact .inl ⟨other, List.mem_of_getElem? there, key, same⟩

private theorem step_insert (invariant : Invariant config state) {caller : Nat} {now : Int}
    (possible : Possible config state (.insert caller now)) :
    Invariant config (perform config state (.insert caller now)) ∧
      Retains state (.insert caller now) (perform config state (.insert caller now)) := by
  obtain ⟨uid, uri, name, resource, is⟩ := possible
  have next : perform config state (.insert caller now) =
      { state with
        data := { state.data with
          downloads := state.data.downloads ++ [built uid uri name resource now]
          count := state.data.count + 1 }
        callers := Function.update state.callers caller .idle } := by
    rw [perform, is]
    rfl
  have unused := (invariant.requests.numbered caller uid uri name resource is).2
  have kept : ∀ {place info}, state.data.downloads[place]? = some info →
      Kept (state.data.downloads ++ [built uid uri name resource now]) place info :=
    fun here => kept_append _ here
  rw [next]
  refine ⟨⟨?_, ?_, ?_, ?_⟩, retains_of_kept fun _ _ _ here _ => kept here⟩
  · show state.data.count + 1 = _
    rw [invariant.counted, List.length_append, List.length_singleton]
  · exact invariant.table.append (unused uri).1 rfl
  · exact invariant.requests.insert is rfl
  · refine invariant.staged.kept fun info _ serves => serves.of_kept (fun _ _ here _ _ => kept here) ?_
    obtain ⟨_, _, _, _, _, _, _, _, fits⟩ := serves
    exact fits.trans (by rw [List.length_append]; exact Nat.le_add_right _ _)

private theorem step_get (invariant : Invariant config state) {caller : Nat} {uri : Text}
    {clock : Nat → Int} (careful : Careful config state (.get caller uri clock)) :
    Invariant config (perform config state (.get caller uri clock)) ∧
      Retains state (.get caller uri clock) (perform config state (.get caller uri clock)) := by
  obtain ⟨old_free, entries_fit, copies_fit⟩ := careful
  obtain ⟨data, callers, stage, set⟩ := state
  obtain ⟨counted, table, requests, staged⟩ := invariant
  dsimp only at counted table requests staged old_free entries_fit copies_fit
  generalize old_eq : oldEntries clock data.downloads.length data.downloads = old at *
  have split : old ++ data.downloads.drop old.length = data.downloads := by
    rw [← old_eq]
    exact oldEntries_append clock _ _
  have above : ∀ {place info socket}, data.downloads[place]? = some info →
      info.socket = some socket → old.length ≤ place := by
    intro place info socket here has_socket
    by_contra below
    rw [← split, List.getElem?_append_left (Nat.lt_of_not_le below)] at here
    rw [old_free info (List.mem_of_getElem? here)] at has_socket
    cases has_socket
  rcases get_cases counted config.maxConcurrentDownload clock uri
    (show data.downloads.drop old.length = _ by rw [old_eq]) with
    ⟨present, missing, got⟩ | ⟨present, place, info, here, key, got⟩
  · have next : perform config { data, callers, stage, set } (.get caller uri clock) =
        { data := { data with
            downloads := data.downloads.drop old.length
            count := (data.downloads.drop old.length).length, socketPresent := present }
          callers, stage, set } := by
      rw [perform]
      dsimp only
      rw [got]
    have fits : ∀ other ∈ data.downloads, other.socket.isSome →
        other.index + old.length ≤ data.downloads.length := by
      intro other among is_some
      refine entries_fit other among is_some (missing other ?_)
      rw [← split, List.mem_append] at among
      rcases among with expired | left
      · rw [old_free other expired] at is_some
        cases is_some
      · exact left
    rw [next]
    refine ⟨⟨rfl, table.drop fits, requests.sublist ((List.drop_sublist _ _).map _),
      staged.kept fun copy among serves => serves.of_kept ?_ ?_⟩,
      retains_of_kept fun _ _ _ here has_socket => kept_drop (above here has_socket) here⟩
    · intro at_place entry here _ same
      obtain ⟨_, _, socket, _, _, _, has_socket, _, _⟩ := serves
      exact kept_drop (above here (same.trans has_socket)) here
    · rw [List.length_drop]
      exact Nat.le_sub_of_add_le (copies_fit copy among)
  · obtain ⟨updated, updated_eq⟩ : ∃ updated : DownloadInformation ρ σ,
        updated = { info with index := place + 1, timeStamp := clock 0 } := ⟨_, rfl⟩
    obtain ⟨result, result_eq⟩ : ∃ result : DownloadInformation ρ σ,
        result = { updated with
          position := waitingPosition config.maxConcurrentDownload (place + 1) } := ⟨_, rfl⟩
    have next : perform config { data, callers, stage, set } (.get caller uri clock) =
        { data := { data with
            downloads := (data.downloads.drop old.length).set place updated
            count := (data.downloads.drop old.length).length, socketPresent := present }
          callers := Function.update callers caller
            (if result.position = 0 then .holding result else .idle)
          stage, set } := by
      rw [perform]
      dsimp only
      rw [got, result_eq, updated_eq]
      rfl
    have in_drop : ∀ {at_place : Nat} {entry : DownloadInformation ρ σ} {socket : σ},
        data.downloads[at_place]? = some entry → entry.socket = some socket →
          Kept ((data.downloads.drop old.length).set place updated) at_place entry := by
      intro at_place entry socket there has_socket
      have le := above there has_socket
      have dropped : (data.downloads.drop old.length)[at_place - old.length]? = some entry := by
        rw [List.getElem?_drop, Nat.add_sub_cancel' le, there]
      have kept : Kept ((data.downloads.drop old.length).set place updated) _ entry :=
        kept_set here (by rw [updated_eq]) (fun socket is => by rw [updated_eq]; exact is) dropped
          has_socket
      obtain ⟨earlier, other, before, found⟩ := kept
      exact ⟨earlier, other, before.trans (Nat.sub_le _ _), found⟩
    have table' : Orderly config ((data.downloads.drop old.length).set place updated) :=
      table.drop_set here (by rw [updated_eq]) (by rw [updated_eq]) (by rw [updated_eq])
        fun other among is_some different => entries_fit other among is_some (key ▸ different)
    have fewer : (((data.downloads.drop old.length).set place updated).map (·.uri)).Sublist
        (data.downloads.map (·.uri)) := by
      rw [map_uri_set here (by rw [updated_eq])]
      exact (List.drop_sublist _ _).map _
    rw [next]
    refine ⟨⟨(List.length_set ..).symm, table', ?_, staged.kept fun copy among serves =>
      serves.of_kept ?_ ?_⟩, retains_of_kept fun _ _ _ there has_socket => in_drop there has_socket⟩
    · have requests' := requests.sublist fewer
      show Requests config data.uid _ (Function.update callers caller _)
      by_cases first : result.position = 0
      · rw [if_pos first]
        have within := (List.getElem?_eq_some_iff.mp here).1
        have at_place := List.getElem?_set_self (a := updated) within
        have is_first : place < config.maxConcurrentDownload := by
          rw [result_eq, waitingPosition] at first
          dsimp only at first
          split_ifs at first with below <;> omega
        refine requests'.hold caller ?_ ⟨?_, ?_⟩
        · rw [result_eq]
          exact List.mem_map.mpr ⟨updated, List.mem_of_getElem? at_place, rfl⟩
        · intro position entry there same
          have position_eq := table'.place_eq there at_place (by rw [same, result_eq])
          rw [result_eq, updated_eq]
          dsimp only
          omega
        · intro socket has_socket
          rw [result_eq, updated_eq] at has_socket
          rw [List.getElem?_drop] at here
          exact (table.entries _ info socket here has_socket).2.2.2
      · rw [if_neg first]
        exact requests'.idle caller
    · intro at_place entry there _ same
      obtain ⟨_, _, socket, _, _, _, has_socket, _, _⟩ := serves
      exact in_drop there (same.trans has_socket)
    · rw [List.length_set, List.length_drop]
      exact Nat.le_sub_of_add_le (copies_fit copy among)

private theorem started_uri (socket : σ) (info : DownloadInformation ρ σ) :
    (started socket info).uri = info.uri ∧ (started socket info).index = info.index := by
  rw [started]
  split_ifs <;> exact ⟨rfl, rfl⟩

private theorem step_update (invariant : Invariant config state) {caller : Nat} {socket : σ}
    (possible : Possible config state (.update caller socket))
    (careful : Careful config state (.update caller socket)) :
    Invariant config (perform config state (.update caller socket)) ∧
      Retains state (.update caller socket) (perform config state (.update caller socket)) := by
  obtain ⟨⟨info, is⟩, described⟩ := possible
  have free := careful info is
  have held := invariant.requests.held caller info is
  obtain ⟨uri_eq, index_eq⟩ := started_uri socket info
  cases found : indexFrom state.data.downloads (started socket info).uri
      (started socket info).index with
  | error exn =>
      obtain ⟨present, missing⟩ := update_error found
      have next : perform config state (.update caller socket) =
          { state with
            data := { state.data with socketPresent := present }
            callers := Function.update state.callers caller .idle } := by
        rw [perform, is]
        dsimp only
        rw [missing]
        rfl
      rw [next]
      exact ⟨⟨invariant.counted, invariant.table, invariant.requests.idle caller,
        invariant.staged⟩, retains_of_eq rfl⟩
  | ok position =>
      obtain ⟨place, entry, rfl, here, key, below, fits⟩ := indexFrom_ok found
      obtain ⟨present, updated⟩ := update_eq found
      have next : perform config state (.update caller socket) =
          { state with
            data := { state.data with
              downloads := state.data.downloads.set place (started socket info)
              socketPresent := present }
            callers := Function.update state.callers caller .idle } := by
        rw [perform, is]
        dsimp only
        rw [updated]
        rfl
      have no_socket := free entry (List.mem_of_getElem? here) (key.trans uri_eq)
      have kept : ∀ {at_place other socket'}, state.data.downloads[at_place]? = some other →
          other.socket = some socket' →
            Kept (state.data.downloads.set place (started socket info)) at_place other :=
        fun there has_socket => kept_set here key.symm
          (fun _ impossible => by rw [no_socket] at impossible; cases impossible) there has_socket
      rw [next]
      refine ⟨⟨?_, ?_, ?_, invariant.staged.kept fun copy _ serves => serves.of_kept ?_ ?_⟩,
        retains_of_kept fun _ _ _ there has_socket => kept there has_socket⟩
      · exact invariant.counted.trans (List.length_set ..).symm
      · refine invariant.table.set here key.symm fun other has_socket => ?_
        refine ⟨(held.behind place entry here (key.trans uri_eq)).2, below, fits, ?_⟩
        rw [started] at has_socket
        split_ifs at has_socket
        · cases has_socket
          exact described
        · exact held.described other has_socket
      · refine Requests.idle (invariant.requests.sublist ?_) caller
        rw [map_uri_set here key.symm]
      · intro at_place other there _ same
        obtain ⟨_, _, socket', _, _, _, has_socket, _, _⟩ := serves
        exact kept there (same.trans has_socket)
      · rw [List.length_set]
        obtain ⟨_, _, _, _, _, _, _, _, fits⟩ := serves
        exact fits

private theorem step_serve (invariant : Invariant config state)
    (possible : Possible config state .serve) :
    Invariant config (perform config state .serve) ∧
      Retains state .serve (perform config state .serve) := by
  obtain ⟨position, last, is⟩ := possible
  obtain ⟨data, callers, stage, set⟩ := state
  obtain rfl : stage = _ := is
  obtain ⟨counted, table, requests, positive, last_eq, round⟩ := invariant
  show Invariant config (serve _ position last) ∧ Retains _ _ (serve _ position last)
  rw [serve]
  split_ifs with past
  · obtain ⟨pairs, filled, _⟩ := round
    obtain ⟨next, reset, empty⟩ := filled.reset
    dsimp only
    rw [reset]
    exact ⟨⟨counted, table, requests, empty⟩, retains_of_eq rfl⟩
  · have within : position ≤ set.count := last_eq ▸ Nat.le_of_not_lt past
    obtain ⟨copy, at_position, _, _, _⟩ := round.at_position positive within
    obtain ⟨events, status⟩ : ∃ events, set.status position = .ok events := by
      obtain ⟨pairs, filled, _⟩ := round
      obtain ⟨place, rfl⟩ := Nat.exists_eq_succ_of_ne_zero positive.ne'
      exact filled.status (filled.count ▸ within)
    dsimp only
    rw [status, at_position]
    dsimp only
    have current : Current set position last copy :=
      ⟨Nat.le_of_not_lt past, copy, at_position, rfl, rfl, rfl⟩
    split_ifs
    · exact ⟨⟨counted, table, requests, positive, last_eq, round, current⟩, retains_of_eq rfl⟩
    · exact ⟨⟨counted, table, requests, positive, last_eq, round, current⟩, retains_of_eq rfl⟩
    · exact ⟨⟨counted, table, requests, positive, last_eq, round, current⟩, retains_of_eq rfl⟩
    · exact ⟨⟨counted, table, requests, Nat.succ_pos position, last_eq, round.later⟩,
        retains_of_eq rfl⟩

/-- The copy that is being done is found, and the others of the round have other keys. -/
private theorem current_found {position last : Nat} {info : DownloadInformation ρ σ}
    (round : Round config downloads set position)
    (positive : 0 < position) (last_eq : last = set.count) (current : Current set position last info) :
    Serves downloads info ∧ ∀ other ∈ set.dataOf.drop position, other.uri ≠ info.uri := by
  obtain ⟨within, copy, at_position, key, index_eq, socket_eq⟩ := current
  obtain ⟨same, there, _, serves, others⟩ := round.at_position positive (last_eq ▸ within)
  rw [at_position] at there
  cases there
  obtain ⟨place, entry, socket, here, entry_key, entry_socket, copy_socket, behind, fits⟩ := serves
  refine ⟨⟨place, entry, socket, here, entry_key.trans key.symm, entry_socket,
    socket_eq.trans copy_socket, index_eq ▸ behind, index_eq ▸ fits⟩, ?_⟩
  exact fun other among same => others other among (same.trans key)

private theorem step_sendHeader (invariant : Invariant config state)
    (possible : Possible config state .sendHeader) :
    Invariant config (perform config state .sendHeader) ∧
      Retains state .sendHeader (perform config state .sendHeader) := by
  obtain ⟨position, last, info, is⟩ := possible
  obtain ⟨data, callers, stage, set⟩ := state
  obtain rfl : stage = _ := is
  obtain ⟨counted, table, requests, positive, last_eq, round, current⟩ := invariant
  obtain ⟨serves, _⟩ := current_found round positive last_eq current
  obtain ⟨place, entry, here, key, entry_socket, found⟩ := serves.found table
  obtain ⟨_, _, socket, _, _, _, has_socket, _, fits⟩ := serves
  obtain ⟨at_place, other, position_eq, there, _, behind, _⟩ := indexFrom_ok found
  obtain rfl := Nat.succ_injective position_eq
  obtain ⟨headed, headed_eq⟩ : ∃ headed : DownloadInformation ρ σ,
      headed = { info with header := true } := ⟨_, rfl⟩
  obtain ⟨present, updated⟩ : ∃ present, update headed data =
      .ok () { data with downloads := data.downloads.set place headed, socketPresent := present } :=
    update_eq (by rw [headed_eq]; exact found)
  have next : perform config { data, callers, stage := .heading position last info, set }
      .sendHeader =
        { data := { data with
            downloads := data.downloads.set place headed, socketPresent := present }
          callers, stage := .sending position last headed, set } := by
    show sendHeader _ position last info = _
    rw [sendHeader, has_socket]
    dsimp only
    rw [← has_socket, ← headed_eq, updated]
  have same_key : headed.uri = entry.uri := by rw [headed_eq, key]
  have same_socket : headed.socket = some socket := by rw [headed_eq, has_socket]
  have kept : ∀ {position other socket'}, data.downloads[position]? = some other →
      other.socket = some socket' → Kept (data.downloads.set place headed) position other :=
    fun there has => kept_set here same_key
      (fun _ old => by rw [same_socket, ← has_socket, ← entry_socket, old]) there has
  rw [next]
  refine ⟨⟨counted.trans (List.length_set ..).symm, ?_, ?_, positive, last_eq, ?_, ?_⟩,
    retains_of_kept fun _ _ _ there has => kept there has⟩
  · refine table.set here same_key fun other is_other => ?_
    obtain ⟨first, _, _, described⟩ :=
      table.entries place entry socket here (entry_socket.trans has_socket)
    rw [same_socket] at is_other
    cases is_other
    rw [headed_eq]
    exact ⟨first, behind, fits, described⟩
  · refine requests.sublist ?_
    rw [map_uri_set here same_key]
  · refine round.kept fun copy _ serves => serves.of_kept ?_ ?_
    · intro position other there _ same
      obtain ⟨_, _, socket', _, _, _, has, _, _⟩ := serves
      exact kept there (same.trans has)
    · rw [List.length_set]
      obtain ⟨_, _, _, _, _, _, _, _, fits⟩ := serves
      exact fits
  · obtain ⟨within, copy, at_position, copy_key, index_eq, socket_eq⟩ := current
    rw [headed_eq]
    exact ⟨within, copy, at_position, copy_key, index_eq, socket_eq⟩

private theorem step_sendData (invariant : Invariant config state) {outcome : SendOutcome}
    (possible : Possible config state (.sendData outcome)) :
    Invariant config (perform config state (.sendData outcome)) ∧
      Retains state (.sendData outcome) (perform config state (.sendData outcome)) := by
  obtain ⟨position, last, info, is⟩ := possible
  obtain ⟨data, callers, stage, set⟩ := state
  obtain rfl : stage = _ := is
  obtain ⟨counted, table, requests, positive, last_eq, round, current⟩ := invariant
  obtain ⟨⟨_, _, socket, _, _, _, has_socket, _⟩, _⟩ :=
    current_found round positive last_eq current
  have next : perform config { data, callers, stage := .sending position last info, set }
      (.sendData outcome) =
        { data, callers, set
          stage := if outcome = .more then .serving (position + 1) last
            else .removing position last info } := by
    show sendData _ position last info outcome = _
    rw [sendData, has_socket]
  rw [next]
  by_cases more : outcome = .more
  · rw [if_pos more]
    exact ⟨⟨counted, table, requests, Nat.succ_pos position, last_eq, round.later⟩,
      retains_of_eq rfl⟩
  · rw [if_neg more]
    exact ⟨⟨counted, table, requests, positive, last_eq, round, current⟩, retains_of_eq rfl⟩

private theorem step_remove (invariant : Invariant config state)
    (possible : Possible config state .remove) (careful : Careful config state .remove) :
    Invariant config (perform config state .remove) ∧
      Retains state .remove (perform config state .remove) := by
  obtain ⟨position, last, info, is⟩ := possible
  have fits := careful position last info is
  obtain ⟨data, callers, stage, set⟩ := state
  obtain rfl : stage = _ := is
  obtain ⟨counted, table, requests, positive, last_eq, round, current⟩ := invariant
  obtain ⟨serves, others⟩ := current_found round positive last_eq current
  obtain ⟨place, entry, here, key, entry_socket, found⟩ := serves.found table
  have within := (List.getElem?_eq_some_iff.mp here).1
  obtain ⟨present, removed⟩ := remove_eq counted found
  have next : perform config { data, callers, stage := .removing position last info, set } .remove =
      { data := { data with
          downloads := data.downloads.eraseIdx place
          count := (data.downloads.eraseIdx place).length, socketPresent := present }
        callers, stage := .serving (position + 1) last, set } := by
    show remove _ position last info = _
    rw [remove]
    dsimp only
    rw [removed]
  have kept : ∀ {at_place other}, data.downloads[at_place]? = some other → other.uri ≠ info.uri →
      Kept (data.downloads.eraseIdx place) at_place other := by
    intro at_place other there different
    refine kept_eraseIdx ?_ there
    rintro rfl
    rw [here] at there
    cases there
    exact different key
  rw [next]
  refine ⟨⟨rfl, ?_, ?_, Nat.succ_pos position, last_eq, ?_⟩, ?_⟩
  · refine table.eraseIdx here fun other among is_some different => fits other ?_ (key ▸ different)
    exact List.mem_append_left _ (List.mem_filter.mpr ⟨among, is_some⟩)
  · exact requests.sublist ((List.eraseIdx_sublist _ _).map _)
  · refine round.later.kept fun copy among serves => serves.of_kept ?_ ?_
    · exact fun _ _ there same _ => kept there (same ▸ others copy among)
    · rw [List.length_eraseIdx_of_lt within]
      refine Nat.le_sub_one_of_lt (fits copy (List.mem_append_right _ ?_) (others copy among))
      exact (List.drop_sublist_drop_left _ (Nat.sub_le position 1)).subset among
  · intro other among is_some
    by_cases same : other.uri = info.uri
    · refine .inr ⟨rfl, position, last, info, rfl, same.symm, ?_⟩
      obtain ⟨at_place, there⟩ := List.mem_iff_getElem?.mp among
      have place_eq := table.place_eq there here (same.trans key.symm)
      rw [place_eq, here] at there
      cases there
      exact entry_socket.symm
    · obtain ⟨at_place, there⟩ := List.mem_iff_getElem?.mp among
      obtain ⟨_, left, _, left_there, left_key, left_socket⟩ := kept there same
      exact .inl ⟨left, List.mem_of_getElem? left_there, left_key, left_socket⟩

/-- Every step keeps the invariant and removes no download that is being served. -/
theorem Invariant.step (invariant : Invariant config state) {step : DownloadStep ρ σ}
    (possible : Possible config state step) (careful : Careful config state step) :
    Invariant config (perform config state step) ∧
      Retains state step (perform config state step) := by
  cases step with
  | getUid caller uri name resource =>
      exact ⟨⟨invariant.counted, invariant.table, invariant.requests.number caller _ _ _,
        invariant.staged⟩, retains_of_eq rfl⟩
  | insert caller now => exact step_insert invariant possible
  | get caller uri clock => exact step_get invariant careful
  | update caller socket => exact step_update invariant possible careful
  | setShutdown =>
      exact ⟨⟨invariant.counted, invariant.table, invariant.requests, invariant.staged⟩,
        retains_of_eq rfl⟩
  | ready =>
      obtain ⟨data, callers, stage, set⟩ := state
      obtain rfl : stage = _ := possible.1
      exact ⟨⟨invariant.counted, invariant.table, invariant.requests, invariant.staged⟩,
        retains_of_eq rfl⟩
  | shutdown =>
      obtain ⟨data, callers, stage, set⟩ := state
      obtain rfl : stage = _ := possible
      refine ⟨⟨invariant.counted, invariant.table, invariant.requests, ?_⟩, retains_of_eq rfl⟩
      show Staged config _ _ (if data.closing then _ else _)
      split_ifs
      · exact invariant.staged
      · exact invariant.staged
  | createSet =>
      obtain ⟨data, callers, stage, set⟩ := state
      obtain rfl : stage = _ := possible
      obtain ⟨next, created, round⟩ :=
        Round.create invariant.table invariant.staged careful.1 careful.2
      have performed : perform config { data, callers, stage := .creating, set } .createSet =
          { data, callers, stage := .waiting, set := next } := by
        rw [perform]
        dsimp only
        rw [created]
      rw [performed]
      exact ⟨⟨invariant.counted, invariant.table, invariant.requests, round⟩, retains_of_eq rfl⟩
  | wait polled =>
      obtain ⟨data, callers, stage, set⟩ := state
      obtain rfl : stage = _ := possible
      obtain ⟨pairs, filled, rest⟩ := invariant.staged
      obtain ⟨count, next, waited, after⟩ := filled.wait polled
      have performed : perform config { data, callers, stage := .waiting, set } (.wait polled) =
          { data, callers, stage := .serving 1 next.count, set := next } := by
        rw [perform]
        dsimp only
        rw [waited]
      rw [performed]
      exact ⟨⟨invariant.counted, invariant.table, invariant.requests, Nat.one_pos, rfl, pairs,
        after, rest⟩, retains_of_eq rfl⟩
  | serve => exact step_serve invariant possible
  | sendHeader => exact step_sendHeader invariant possible
  | sendData outcome => exact step_sendData invariant possible
  | remove => exact step_remove invariant possible careful

/-! ## Runs -/

/-- A set in a round carries the information of its sockets. -/
private theorem Staged.filled {stage : ManagerStage ρ σ}
    (staged : Staged config downloads set stage) :
    ∃ pairs : List (σ × DownloadInformation ρ σ), set.Filled config.getFd pairs ∧
      pairs.length ≤ config.maxConcurrentDownload ∧
      ∀ pair ∈ pairs, pair.2.socket = some pair.1 := by
  have of_empty : set.Filled config.getFd ([] : List (σ × DownloadInformation ρ σ)) →
      ∃ pairs : List (σ × DownloadInformation ρ σ), set.Filled config.getFd pairs ∧
        pairs.length ≤ config.maxConcurrentDownload ∧
        ∀ pair ∈ pairs, pair.2.socket = some pair.1 :=
    fun empty => ⟨[], empty, Nat.zero_le _, fun _ among => by cases among⟩
  have of_round : ∀ {position}, Round config downloads set position →
      ∃ pairs : List (σ × DownloadInformation ρ σ), set.Filled config.getFd pairs ∧
        pairs.length ≤ config.maxConcurrentDownload ∧
        ∀ pair ∈ pairs, pair.2.socket = some pair.1 :=
    fun ⟨pairs, filled, bounded, carried, _⟩ => ⟨pairs, filled, bounded, carried⟩
  cases stage with
  | ready => exact of_empty staged
  | passed => exact of_empty staged
  | creating => exact of_empty staged
  | terminated => exact of_empty staged
  | waiting => exact of_round staged
  | serving position last => exact of_round staged.2.2
  | heading position last info => exact of_round staged.2.2.1
  | sending position last info => exact of_round staged.2.2.1
  | removing position last info => exact of_round staged.2.2.1
  | failed exn => exact staged.elim

theorem Invariant.sound (invariant : Invariant config state) : Sound config state := by
  obtain ⟨pairs, filled, bounded, carried⟩ := invariant.staged.filled
  refine ⟨invariant.counted, ?_, ?_, ?_, invariant.table.running_le, ?_⟩
  · intro info among
    have serves : Serves state.data.downloads info := by
      rcases List.mem_append.mp among with running | left
      · obtain ⟨in_downloads, is_some⟩ := List.mem_filter.mp running
        obtain ⟨place, here⟩ := List.mem_iff_getElem?.mp in_downloads
        obtain ⟨socket, has_socket⟩ := Option.isSome_iff_exists.mp is_some
        exact invariant.table.serves here has_socket
      · exact invariant.staged.serves left
    obtain ⟨place, entry, here, key, _, found⟩ := serves.found invariant.table
    exact ⟨place, entry, here, key, found⟩
  · intro position positive within
    obtain ⟨place, rfl⟩ := Nat.exists_eq_succ_of_ne_zero positive.ne'
    rw [filled.count] at within
    have here := List.getElem?_eq_getElem within
    obtain ⟨socket_eq, data_eq⟩ := filled.record here
    exact ⟨_, _, data_eq, socket_eq, carried _ (List.mem_of_getElem? here)⟩
  · rw [filled.count]
    exact bounded
  · intro exn failed
    have staged := invariant.staged
    rw [failed] at staged
    exact staged

/-- In a careful run what has to hold holds in every state, and no step removes a download that is
being served before its transfer has ended. -/
theorem sound_of_careful_run {steps : List (DownloadStep ρ σ)}
    (run : Run (Guarded (Careful config) (Steps config)) {} steps state) :
    state.Sound config ∧ ∀ step next, Guarded (Careful config) (Steps config) state step next →
      state.Retains step next := by
  have invariant : Invariant config state :=
    run.invariant (Invariant config) invariant_initially fun before stepped => by
      obtain ⟨careful, possible, rfl⟩ := stepped
      exact (before.step possible careful).1
  refine ⟨invariant.sound, ?_⟩
  rintro step next ⟨careful, possible, rfl⟩
  exact (invariant.step possible careful).2

/-! ## Two runs -/

/-- Two downloads at a time, and sockets that are their descriptors. -/
private def two : DownloadConfig Nat where
  maxConcurrentDownload := 2
  getFd := Nat.cast

/-- A request builds a download and asks for it until it is served. -/
private def request (caller : Nat) (uri : Text) (socket : Nat) : List (DownloadStep Unit Nat) :=
  let key := keyUri uri (caller + 1)
  [.getUid caller uri [] (), .insert caller 0, .get caller key fun _ => 0, .update caller socket,
    .get caller key fun _ => 0, .update caller socket]

/-- The task creates a set and serves the first download to the end. -/
private def firstRound : List (DownloadStep Unit Nat) :=
  [.ready, .shutdown, .createSet, .wait fun _ => {.pollout}, .serve, .sendHeader,
    .sendData .finished]

private def failing : List (DownloadStep Unit Nat) :=
  request 0 [97] 5 ++ request 1 [98] 6 ++ firstRound ++ [.remove, .serve, .sendHeader]

/-- One download is served to the end and removed. -/
private def successful : List (DownloadStep Unit Nat) :=
  request 0 [97] 5 ++ firstRound ++ [.remove, .serve]

theorem sound_successful :
    ∃ state, Run (Guarded (Careful two) (Steps two)) {} successful state ∧
      Sound two state ∧ ∀ step next, Guarded (Careful two) (Steps two) state step next →
        state.Retains step next := by
  have run : Run (Guarded (Careful two) (Steps two)) {} successful
      (successful.foldl (perform two) {}) := by
    have both : Run (Performs (fun state step => Careful two state step ∧ Possible two state step)
        (perform two)) {} successful (successful.foldl (perform two) {}) :=
      run_of_allPossible (by decide +kernel)
    exact both.mono fun stepped => ⟨stepped.1.1, stepped.1.2, stepped.2⟩
  exact ⟨_, run, sound_of_careful_run run⟩

/-- The second of two downloads is not found when the first one has been removed. -/
theorem task_fails :
    ∃ steps state, Run (Steps two) ({} : Downloading Unit Nat) steps state ∧
      state.stage = .failed .constraintError ∧ ¬Sound two state := by
  have failed : (failing.foldl (perform two) {}).stage = .failed .constraintError := by
    decide +kernel
  refine ⟨failing, _, run_of_allPossible (by decide +kernel), failed, ?_⟩
  exact fun sound => sound.alive _ failed

end Downloading
end Services
end AdaWebServer

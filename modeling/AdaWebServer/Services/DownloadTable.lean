import AdaWebServer.Services.DownloadManager
import AdaWebServer.Utils.Images
import Mathlib.Data.List.NodupEquivFin

/-!
# What holds of the vector of downloads

The keys are unique.  A download that has a socket is one of the first in the vector, and remembers a
position that is not before its own and not above the last one.  The operations move downloads to
earlier positions only.
-/

namespace AdaWebServer
namespace Services

open Http2 (Text image)

variable {ρ σ : Type}

/-! ## Keys -/

theorem keyUri_uid {first second : Text} {uid other : Nat}
    (same : keyUri first uid = keyUri second other) : uid = other := by
  have no_dollar : ∀ number, (36 : UInt8) ∉ image number := by
    intro number among
    exact absurd (Utils.mem_image among).1 (by decide)
  rw [keyUri, keyUri, List.append_eq_append_iff] at same
  rcases same with ⟨more, _, tail⟩ | ⟨more, _, tail⟩
  · cases more with
    | nil => exact Utils.image_injective (List.cons.inj tail).2
    | cons octet more =>
        refine absurd ?_ (no_dollar uid)
        rw [(List.cons.inj tail).2]
        exact List.mem_append_right more List.mem_cons_self
  · cases more with
    | nil => exact (Utils.image_injective (List.cons.inj tail).2).symm
    | cons octet more =>
        refine absurd ?_ (no_dollar other)
        rw [(List.cons.inj tail).2]
        exact List.mem_append_right more List.mem_cons_self

/-! ## Entries -/

/-- The vector of downloads. -/
structure Orderly (config : DownloadConfig σ) (downloads : List (DownloadInformation ρ σ)) :
    Prop where
  keys : (downloads.map (·.uri)).Nodup
  entries : ∀ place info socket, downloads[place]? = some info → info.socket = some socket →
    place < config.maxConcurrentDownload ∧ place < info.index ∧ info.index ≤ downloads.length ∧
      0 ≤ config.getFd socket

/-- A copy of a download is in the vector, with the same socket, and its remembered position is not
before it and not above the last one. -/
def Serves (downloads : List (DownloadInformation ρ σ)) (info : DownloadInformation ρ σ) : Prop :=
  ∃ place entry socket, downloads[place]? = some entry ∧ entry.uri = info.uri ∧
    entry.socket = some socket ∧ info.socket = some socket ∧ place < info.index ∧
    info.index ≤ downloads.length

/-- An entry is still there, at the same position or an earlier one. -/
def Kept (after : List (DownloadInformation ρ σ)) (place : Nat)
    (entry : DownloadInformation ρ σ) : Prop :=
  ∃ earlier other, earlier ≤ place ∧ after[earlier]? = some other ∧ other.uri = entry.uri ∧
    other.socket = entry.socket

variable {config : DownloadConfig σ} {downloads after : List (DownloadInformation ρ σ)}
  {info entry : DownloadInformation ρ σ} {place : Nat}

/-- Downloads with the same key are at the same position. -/
theorem Orderly.place_eq (orderly : Orderly config downloads)
    {other : Nat} {second : DownloadInformation ρ σ} (here : downloads[place]? = some entry)
    (there : downloads[other]? = some second) (same : entry.uri = second.uri) : place = other := by
  have within := (List.getElem?_eq_some_iff.mp here).1
  refine (List.getElem?_inj (by rwa [List.length_map]) orderly.keys).mp ?_
  rw [List.getElem?_map, List.getElem?_map, here, there, Option.map_some, Option.map_some, same]

/-- A copy is found. -/
theorem Serves.found (orderly : Orderly config downloads) (serves : Serves downloads info) :
    ∃ place entry, downloads[place]? = some entry ∧ entry.uri = info.uri ∧
      entry.socket = info.socket ∧
      DataManager.indexFrom downloads info.uri info.index = .ok (place + 1) := by
  obtain ⟨place, entry, socket, here, key, entry_socket, info_socket, behind, fits⟩ := serves
  refine ⟨place, entry, here, key, entry_socket.trans info_socket.symm, ?_⟩
  rw [← key]
  exact DataManager.indexFrom_eq orderly.keys here behind fits

/-- A download with a socket serves itself. -/
theorem Orderly.serves (orderly : Orderly config downloads) {socket : σ}
    (here : downloads[place]? = some info) (has_socket : info.socket = some socket) :
    Serves downloads info := by
  obtain ⟨_, behind, fits, _⟩ := orderly.entries place info socket here has_socket
  exact ⟨place, info, socket, here, rfl, has_socket, has_socket, behind, fits⟩

theorem Serves.of_kept (serves : Serves downloads info)
    (kept : ∀ place entry, downloads[place]? = some entry → entry.uri = info.uri →
      entry.socket = info.socket → Kept after place entry) (fits : info.index ≤ after.length) :
    Serves after info := by
  obtain ⟨place, entry, socket, here, key, entry_socket, info_socket, behind, _⟩ := serves
  obtain ⟨earlier, other, before, there, other_key, other_socket⟩ :=
    kept place entry here key (entry_socket.trans info_socket.symm)
  exact ⟨earlier, other, socket, there, other_key.trans key, other_socket.trans entry_socket,
    info_socket, before.trans_lt behind, fits⟩

theorem kept_append (more : List (DownloadInformation ρ σ)) (here : downloads[place]? = some entry) :
    Kept (downloads ++ more) place entry := by
  have within := (List.getElem?_eq_some_iff.mp here).1
  exact ⟨place, entry, le_rfl, (List.getElem?_append_left within).trans here, rfl, rfl⟩

theorem kept_drop {count : Nat} (above : count ≤ place) (here : downloads[place]? = some entry) :
    Kept (downloads.drop count) place entry := by
  refine ⟨place - count, entry, Nat.sub_le _ _, ?_, rfl, rfl⟩
  rw [List.getElem?_drop, Nat.add_sub_cancel' above, here]

/-- A download is replaced by one with the same key; what had a socket keeps it. -/
theorem kept_set {changed : Nat} {old : DownloadInformation ρ σ}
    (at_changed : downloads[changed]? = some old) (key : info.uri = old.uri)
    (keeps : ∀ socket, old.socket = some socket → info.socket = some socket) {socket : σ}
    (here : downloads[place]? = some entry) (has_socket : entry.socket = some socket) :
    Kept (downloads.set changed info) place entry := by
  have within := (List.getElem?_eq_some_iff.mp here).1
  by_cases same : changed = place
  · subst same
    rw [here] at at_changed
    cases at_changed
    exact ⟨changed, info, le_rfl, List.getElem?_set_self within, key,
      (keeps socket has_socket).trans has_socket.symm⟩
  · exact ⟨place, entry, le_rfl, (List.getElem?_set_ne same).trans here, rfl, rfl⟩

theorem kept_eraseIdx {removed : Nat} (other : place ≠ removed)
    (here : downloads[place]? = some entry) : Kept (downloads.eraseIdx removed) place entry := by
  by_cases before : place < removed
  · exact ⟨place, entry, le_rfl, (List.getElem?_eraseIdx_of_lt before).trans here, rfl, rfl⟩
  · refine ⟨place - 1, entry, Nat.sub_le _ _, ?_, rfl, rfl⟩
    rw [List.getElem?_eraseIdx_of_ge (by omega), Nat.sub_add_cancel (by omega), here]

/-! ## The operations keep the vector in order -/

theorem map_uri_set (at_place : downloads[place]? = some entry) (key : info.uri = entry.uri) :
    (downloads.set place info).map (·.uri) = downloads.map (·.uri) := by
  rw [List.map_set, key]
  apply List.ext_getElem?
  intro position
  rw [List.getElem?_set]
  split_ifs with same within
  · rw [← same, List.getElem?_map, at_place, Option.map_some]
  · rw [← same, List.getElem?_eq_none (Nat.le_of_not_lt within)]
  · rfl

theorem Orderly.append (orderly : Orderly config downloads)
    (new : info.uri ∉ downloads.map (·.uri)) (no_socket : info.socket = none) :
    Orderly config (downloads ++ [info]) where
  keys := by
    rw [List.map_append, List.map_singleton]
    exact orderly.keys.append (List.nodup_singleton _) (List.disjoint_singleton.mpr new)
  entries := by
    intro place other socket here has_socket
    rcases Nat.lt_or_ge place downloads.length with within | above
    · rw [List.getElem?_append_left within] at here
      obtain ⟨first, behind, fits, described⟩ := orderly.entries place other socket here has_socket
      exact ⟨first, behind, fits.trans (by rw [List.length_append]; omega), described⟩
    · rw [List.getElem?_append_right above] at here
      obtain rfl : info = other := by
        have := List.mem_of_getElem? here
        exact (List.mem_singleton.mp this).symm
      rw [no_socket] at has_socket
      cases has_socket

theorem Orderly.set (orderly : Orderly config downloads) (at_place : downloads[place]? = some entry)
    (key : info.uri = entry.uri)
    (in_order : ∀ socket, info.socket = some socket → place < config.maxConcurrentDownload ∧
      place < info.index ∧ info.index ≤ downloads.length ∧ 0 ≤ config.getFd socket) :
    Orderly config (downloads.set place info) where
  keys := by
    rw [map_uri_set at_place key]
    exact orderly.keys
  entries := by
    intro position other socket here has_socket
    rw [List.length_set]
    rw [List.getElem?_set] at here
    split_ifs at here with same within
    · cases here
      subst same
      exact in_order socket has_socket
    · exact orderly.entries position other socket here has_socket

/-- Downloads are removed that are not served, and one of the others gets a new position. -/
theorem Orderly.drop_set {count : Nat} (orderly : Orderly config downloads)
    {updated : DownloadInformation ρ σ} (at_place : (downloads.drop count)[place]? = some info)
    (key : updated.uri = info.uri) (socket_eq : updated.socket = info.socket)
    (index_eq : updated.index = place + 1)
    (fits : ∀ other ∈ downloads, other.socket.isSome → other.uri ≠ info.uri →
      other.index + count ≤ downloads.length) :
    Orderly config ((downloads.drop count).set place updated) where
  keys := by
    rw [map_uri_set at_place key]
    exact orderly.keys.sublist ((List.drop_sublist count downloads).map _)
  entries := by
    intro position other socket here has_socket
    have at_drop := at_place
    rw [List.getElem?_drop] at at_place
    have within := (List.getElem?_eq_some_iff.mp at_place).1
    rw [List.length_set, List.length_drop]
    rw [List.getElem?_set] at here
    split_ifs at here with same below
    · cases here
      subst same
      rw [socket_eq] at has_socket
      obtain ⟨first, _, _, described⟩ := orderly.entries _ _ _ at_place has_socket
      exact ⟨by omega, by omega, by omega, described⟩
    · rw [List.getElem?_drop] at here
      obtain ⟨first, behind, _, described⟩ := orderly.entries _ _ _ here has_socket
      have different : other.uri ≠ info.uri := by
        intro equal
        have := orderly.place_eq here at_place equal
        omega
      have room := fits other (List.mem_of_getElem? here) (by rw [has_socket]; rfl) different
      exact ⟨by omega, by omega, by omega, described⟩

theorem Orderly.drop {count : Nat} (orderly : Orderly config downloads)
    (fits : ∀ other ∈ downloads, other.socket.isSome → other.index + count ≤ downloads.length) :
    Orderly config (downloads.drop count) where
  keys := orderly.keys.sublist ((List.drop_sublist count downloads).map _)
  entries := by
    intro position other socket here has_socket
    rw [List.getElem?_drop] at here
    obtain ⟨first, behind, _, described⟩ := orderly.entries _ _ _ here has_socket
    have room := fits other (List.mem_of_getElem? here) (by rw [has_socket]; rfl)
    rw [List.length_drop]
    exact ⟨by omega, by omega, by omega, described⟩

theorem Orderly.eraseIdx (orderly : Orderly config downloads)
    (at_place : downloads[place]? = some info)
    (fits : ∀ other ∈ downloads, other.socket.isSome → other.uri ≠ info.uri →
      other.index < downloads.length) :
    Orderly config (downloads.eraseIdx place) where
  keys := orderly.keys.sublist ((List.eraseIdx_sublist downloads place).map _)
  entries := by
    intro position other socket here has_socket
    have within := (List.getElem?_eq_some_iff.mp at_place).1
    rw [List.length_eraseIdx_of_lt within]
    obtain ⟨old, at_old, old_le, old_ne⟩ :
        ∃ old, downloads[old]? = some other ∧ position ≤ old ∧ old ≠ place := by
      rw [List.getElem?_eraseIdx] at here
      split_ifs at here with before
      · exact ⟨position, here, le_rfl, before.ne⟩
      · exact ⟨position + 1, here, Nat.le_succ position, by omega⟩
    obtain ⟨first, behind, _, described⟩ := orderly.entries _ _ _ at_old has_socket
    have different : other.uri ≠ info.uri := fun equal =>
      old_ne (orderly.place_eq at_old at_place equal)
    have room := fits other (List.mem_of_getElem? at_old) (by rw [has_socket]; rfl) different
    exact ⟨by omega, by omega, by omega, described⟩

theorem Orderly.running_le (orderly : Orderly config downloads) :
    (downloads.filter (·.socket.isSome)).length ≤ config.maxConcurrentDownload := by
  have none_above : (downloads.drop config.maxConcurrentDownload).filter (·.socket.isSome) = [] := by
    rw [List.filter_eq_nil_iff]
    intro info among is_some
    obtain ⟨position, here⟩ := List.mem_iff_getElem?.mp among
    obtain ⟨socket, has_socket⟩ := Option.isSome_iff_exists.mp is_some
    rw [List.getElem?_drop] at here
    have := (orderly.entries _ _ _ here has_socket).1
    omega
  rw [← List.take_append_drop config.maxConcurrentDownload downloads, List.filter_append,
    none_above, List.append_nil]
  exact (List.length_filter_le _ _).trans (List.length_take_le _ _)

end Services
end AdaWebServer

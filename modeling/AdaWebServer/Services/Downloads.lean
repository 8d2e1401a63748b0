import AdaWebServer.Foundations.Protected
import AdaWebServer.Net.GenericSets

/-!
# The data of the download manager

A protected object keeps the downloads in a vector.  A download is looked up by the position that it
had when a request asked for it last, from there down to the first position.
-/

namespace AdaWebServer
namespace Services

open Http2 (Exn Text)
open Net

/-- `Download_Information`. -/
structure DownloadInformation (ρ σ : Type) where
  uri : Text
  name : Text
  rUri : Text
  started : Bool
  header : Bool
  stream : ρ
  socket : Option σ
  position : Nat
  index : Nat
  timeStamp : Int
  deriving DecidableEq

/-- `Data_Manager`. -/
structure DataManager (ρ σ : Type) where
  count : Nat := 0
  downloads : List (DownloadInformation ρ σ) := []
  uid : Nat := 0
  closing : Bool := false
  socketPresent : Bool := false

/-- A protected operation. -/
abbrev DataAction (ρ σ α : Type) := EStateM Exn (DataManager ρ σ) α

variable {ρ σ : Type}

/-- The fifteen seconds after which `Get` removes a download, in units of `Duration`. -/
def oldAge : Int := 15 * 10 ^ 9

namespace DataManager

/-- The loop of `Index` from a position down. -/
def indexFrom (downloads : List (DownloadInformation ρ σ)) (uri : Text) : Nat → Except Exn Nat
  | 0 => .error .constraintError
  | position + 1 =>
      match downloads[position]? with
      | none => .error .constraintError
      | some info => if uri = info.uri then .ok (position + 1) else indexFrom downloads uri position

/-- `Index`. -/
def index (download : DownloadInformation ρ σ) : DataAction ρ σ Nat := do
  match indexFrom (← get).downloads download.uri download.index with
  | .ok position => pure position
  | .error exn => throw exn

/-- `Check_Queue`. -/
def checkQueue : DataAction ρ σ Unit :=
  modify fun data => { data with socketPresent := data.downloads.any (·.socket.isSome) }

/-- `Count := @ - 1`. -/
def decreaseCount : DataAction ρ σ Unit := do
  if (← get).count = 0 then throw .constraintError
  modify fun data => { data with count := data.count - 1 }

/-- `Insert`. -/
def insert (download : DownloadInformation ρ σ) : DataAction ρ σ Unit :=
  modify fun data =>
    { data with downloads := data.downloads ++ [download], count := data.count + 1 }

/-- `Get_UID`. -/
def getUid : DataAction ρ σ Nat :=
  modifyGet fun data => (data.uid + 1, { data with uid := data.uid + 1 })

/-- `Remove_Old_Entries`, with what the clock shows at each turn. -/
def removeOldEntries (clock : Nat → Int) : Nat → DataAction ρ σ Unit
  | 0 => pure ()
  | turns + 1 => do
      match (← get).downloads with
      | [] => pure ()
      | info :: rest =>
          if clock (turns + 1) - info.timeStamp > oldAge then
            modify fun data => { data with downloads := rest }
            decreaseCount
            removeOldEntries clock turns
          else pure ()

/-- The position of a download in the waiting line. -/
def waitingPosition (maxConcurrentDownload index : Nat) : Nat :=
  if index ≤ maxConcurrentDownload then 0 else index - maxConcurrentDownload

/-- `Get`.  There is no result for `No_Information`. -/
def get (maxConcurrentDownload : Nat) (clock : Nat → Int) (uri : Text) :
    DataAction ρ σ (Option (DownloadInformation ρ σ)) := do
  removeOldEntries clock (← MonadState.get).downloads.length
  match (← MonadState.get).downloads.zipIdx.find? fun entry => uri = entry.1.uri with
  | none =>
      checkQueue
      pure none
  | some (info, place) =>
      let info := { info with index := place + 1, timeStamp := clock 0 }
      modify fun data => { data with downloads := data.downloads.set place info }
      checkQueue
      pure (some { info with position := waitingPosition maxConcurrentDownload info.index })

/-- `Remove`. -/
def remove (download : DownloadInformation ρ σ) : DataAction ρ σ Unit := do
  let position ← index download
  modify fun data => { data with downloads := data.downloads.eraseIdx (position - 1) }
  decreaseCount
  checkQueue

/-- `Set_Shutdown`. -/
def setShutdown : DataAction ρ σ Unit := modify fun data => { data with closing := true }

/-- `Update`. -/
def update (download : DownloadInformation ρ σ) : DataAction ρ σ Unit := do
  if download.socket.isSome then
    modify fun data => { data with socketPresent := true }
  let position ← index download
  modify fun data => { data with downloads := data.downloads.set (position - 1) download }

/-- The loop of `Create_Set` over downloads from a position on. -/
def createSetFrom (getFd : σ → Int) :
    Nat → List (DownloadInformation ρ σ) → SetAction σ (DownloadInformation ρ σ) Unit
  | _, [] => pure ()
  | position, info :: rest => do
      match info.socket with
      | none => pure ()
      | some socket =>
          SocketSet.add getFd socket false none fun event => event = .output
          SocketSet.setData position info
      createSetFrom getFd (position + 1) rest

/-- `Create_Set`, which raises when there is no download, since the length is not positive. -/
def createSet (getFd : σ → Int) (maxConcurrentDownload : Nat)
    (downloads : List (DownloadInformation ρ σ)) : SetAction σ (DownloadInformation ρ σ) Unit := do
  if downloads.length = 0 then throw .constraintError
  createSetFrom getFd 1 (downloads.take (min maxConcurrentDownload downloads.length))

/-! ## What the operations do -/

/-- The downloads that `Get` removes: old ones without a younger one before them. -/
def oldEntries (clock : Nat → Int) :
    Nat → List (DownloadInformation ρ σ) → List (DownloadInformation ρ σ)
  | 0, _ | _, [] => []
  | turns + 1, info :: rest =>
      if clock (turns + 1) - info.timeStamp > oldAge then info :: oldEntries clock turns rest else []

section

variable {data : DataManager ρ σ} {downloads : List (DownloadInformation ρ σ)}

/-- A position that is found is that of a download with the same key, and all positions from which
it was searched are in the vector. -/
theorem indexFrom_ok {uri : Text} {index position : Nat}
    (found : indexFrom downloads uri index = .ok position) :
    ∃ place info, position = place + 1 ∧ downloads[place]? = some info ∧ info.uri = uri ∧
      place < index ∧ index ≤ downloads.length := by
  induction index with
  | zero => cases found
  | succ index ih =>
      rw [indexFrom] at found
      cases here : downloads[index]? with
      | none =>
          rw [here] at found
          cases found
      | some info =>
          have within := (List.getElem?_eq_some_iff.mp here).1
          rw [here] at found
          dsimp only at found
          split_ifs at found with same
          · cases found
            exact ⟨index, info, rfl, here, same.symm, Nat.lt_succ_self index, within⟩
          · obtain ⟨place, other, position_eq, at_place, key, below, _⟩ := ih found
            exact ⟨place, other, position_eq, at_place, key, Nat.lt_succ_of_lt below, within⟩

/-- A download is found from its position or a later one in the vector. -/
theorem indexFrom_eq (keys : (downloads.map (·.uri)).Nodup) {place index : Nat}
    {info : DownloadInformation ρ σ} (here : downloads[place]? = some info) (after : place < index)
    (fits : index ≤ downloads.length) : indexFrom downloads info.uri index = .ok (place + 1) := by
  induction index with
  | zero => exact absurd after (Nat.not_lt_zero place)
  | succ index ih =>
      have at_index : downloads[index]? = some downloads[index] := List.getElem?_eq_getElem fits
      rw [indexFrom, at_index]
      dsimp only
      split_ifs with same
      · have place_eq : place = index := by
          have within := (List.getElem?_eq_some_iff.mp here).1
          refine (List.getElem?_inj (by rwa [List.length_map]) keys).mp ?_
          rw [List.getElem?_map, List.getElem?_map, here, at_index, Option.map_some,
            Option.map_some, same]
        rw [place_eq]
      · refine ih (Nat.lt_of_le_of_ne (Nat.le_of_lt_succ after) ?_) (Nat.le_of_succ_le fits)
        rintro rfl
        rw [here] at at_index
        exact same (congrArg (·.uri) (Option.some_inj.mp at_index))

/-- The old downloads are the first ones. -/
theorem oldEntries_append (clock : Nat → Int) (turns : Nat)
    (downloads : List (DownloadInformation ρ σ)) :
    oldEntries clock turns downloads ++
      downloads.drop (oldEntries clock turns downloads).length = downloads := by
  induction turns generalizing downloads with
  | zero => rfl
  | succ turns ih =>
      cases downloads with
      | nil => rfl
      | cons info rest =>
          rw [oldEntries]
          split_ifs
          · exact congrArg (info :: ·) (ih rest)
          · rfl

private theorem removeOldEntries_eq (clock : Nat → Int) (turns : Nat)
    (counted : data.count = data.downloads.length) :
    removeOldEntries clock turns data =
      .ok () { data with
        downloads := data.downloads.drop (oldEntries clock turns data.downloads).length
        count := (data.downloads.drop (oldEntries clock turns data.downloads).length).length } := by
  induction turns generalizing data with
  | zero =>
      obtain ⟨count, downloads, uid, closing, present⟩ := data
      obtain rfl : count = downloads.length := counted
      rfl
  | succ turns ih =>
      obtain ⟨count, downloads, uid, closing, present⟩ := data
      obtain rfl : count = downloads.length := counted
      cases downloads with
      | nil => rfl
      | cons info rest =>
          by_cases old : clock (turns + 1) - info.timeStamp > oldAge
          · have next := @ih
              { count := rest.length, downloads := rest, uid, closing, socketPresent := present } rfl
            have entries : oldEntries clock (turns + 1) (info :: rest) =
                info :: oldEntries clock turns rest := if_pos old
            rw [entries]
            refine Eq.trans ?_ next
            simp only [removeOldEntries, bind, EStateM.bind, MonadState.get, getThe,
              MonadStateOf.get, Protected.get_returned, if_pos old, modify, modifyGet, MonadStateOf.modifyGet,
              Protected.modifyGet_returned, decreaseCount, List.length_cons]
            rfl
          · have entries : oldEntries clock (turns + 1) (info :: rest) = [] := if_neg old
            rw [entries]
            simp only [removeOldEntries, bind, EStateM.bind, MonadState.get, getThe,
              MonadStateOf.get, Protected.get_returned, if_neg old]
            rfl

/-- `Get` removes the old downloads and looks for the key in the others. -/
theorem get_cases (counted : data.count = data.downloads.length) (maxConcurrentDownload : Nat)
    (clock : Nat → Int) (uri : Text) {rest : List (DownloadInformation ρ σ)}
    (rest_eq : rest =
      data.downloads.drop (oldEntries clock data.downloads.length data.downloads).length) :
    (∃ present, (∀ info ∈ rest, info.uri ≠ uri) ∧
        get maxConcurrentDownload clock uri data =
          .ok none { data with
            downloads := rest, count := rest.length, socketPresent := present }) ∨
      ∃ present place info, rest[place]? = some info ∧ info.uri = uri ∧
        get maxConcurrentDownload clock uri data =
          .ok (some { info with
              index := place + 1, timeStamp := clock 0
              position := waitingPosition maxConcurrentDownload (place + 1) })
            { data with
              downloads := rest.set place { info with index := place + 1, timeStamp := clock 0 }
              count := rest.length, socketPresent := present } := by
  have removed := removeOldEntries_eq clock data.downloads.length counted
  rw [← rest_eq] at removed
  cases found : rest.zipIdx.find? fun entry => decide (uri = entry.1.uri) with
  | none =>
      refine .inl ⟨rest.any (·.socket.isSome), ?_, ?_⟩
      · intro info among same
        obtain ⟨place, here⟩ := List.mem_iff_getElem?.mp among
        have tested := List.find?_eq_none.mp found (info, place) (List.mem_zipIdx_iff_getElem?.mpr here)
        exact tested (decide_eq_true same.symm)
      simp only [get, bind, EStateM.bind, MonadState.get, getThe, MonadStateOf.get, Protected.get_returned,
        removed, found]
      rfl
  | some entry =>
      obtain ⟨info, place⟩ := entry
      have among := List.mem_zipIdx_iff_getElem?.mp (List.mem_of_find?_eq_some found)
      have test := List.find?_some found
      have same : uri = info.uri := of_decide_eq_true test
      refine .inr ⟨(rest.set place { info with index := place + 1, timeStamp := clock 0 }).any
        (·.socket.isSome), place, info, among, same.symm, ?_⟩
      simp only [get, bind, EStateM.bind, MonadState.get, getThe, MonadStateOf.get, Protected.get_returned,
        removed, found]
      rfl

/-- `Update` replaces the download that is found. -/
theorem update_eq {download : DownloadInformation ρ σ} {place : Nat}
    (found : indexFrom data.downloads download.uri download.index = .ok (place + 1)) :
    ∃ present, update download data =
      .ok () { data with
        downloads := data.downloads.set place download, socketPresent := present } := by
  obtain ⟨count, downloads, uid, closing, present⟩ := data
  cases has_socket : download.socket.isSome with
  | true =>
      refine ⟨true, ?_⟩
      simp only [update, index, has_socket, bind, EStateM.bind, modify, modifyGet,
        MonadStateOf.modifyGet, Protected.modifyGet_returned, MonadState.get, getThe, MonadStateOf.get,
        Protected.get_returned, found, if_true]
      rfl
  | false =>
      refine ⟨present, ?_⟩
      simp only [update, index, has_socket, bind, EStateM.bind, modify, modifyGet,
        MonadStateOf.modifyGet, Protected.modifyGet_returned, MonadState.get, getThe, MonadStateOf.get,
        Protected.get_returned, found, Bool.false_eq_true, if_false]
      rfl

/-- `Update` of a download that is not found changes no download. -/
theorem update_error {download : DownloadInformation ρ σ} {exn : Exn}
    (missing : indexFrom data.downloads download.uri download.index = .error exn) :
    ∃ present, update download data = .error exn { data with socketPresent := present } := by
  obtain ⟨count, downloads, uid, closing, present⟩ := data
  cases has_socket : download.socket.isSome with
  | true =>
      refine ⟨true, ?_⟩
      simp only [update, index, has_socket, bind, EStateM.bind, modify, modifyGet,
        MonadStateOf.modifyGet, Protected.modifyGet_returned, MonadState.get, getThe, MonadStateOf.get,
        Protected.get_returned, missing, if_true]
      rfl
  | false =>
      refine ⟨present, ?_⟩
      simp only [update, index, has_socket, bind, EStateM.bind, modify, modifyGet,
        MonadStateOf.modifyGet, Protected.modifyGet_returned, MonadState.get, getThe, MonadStateOf.get,
        Protected.get_returned, missing, Bool.false_eq_true, if_false]
      rfl

/-- `Remove` removes the download that is found. -/
theorem remove_eq {download : DownloadInformation ρ σ} {place : Nat}
    (counted : data.count = data.downloads.length)
    (found : indexFrom data.downloads download.uri download.index = .ok (place + 1)) :
    ∃ present, remove download data =
      .ok () { data with
        downloads := data.downloads.eraseIdx place
        count := (data.downloads.eraseIdx place).length, socketPresent := present } := by
  obtain ⟨at_place, info, position_eq, here, _, _, _⟩ := indexFrom_ok found
  have within : place < data.downloads.length := by
    rw [Nat.succ_injective position_eq]
    exact (List.getElem?_eq_some_iff.mp here).1
  obtain ⟨count, downloads, uid, closing, present⟩ := data
  obtain rfl : count = downloads.length := counted
  refine ⟨(downloads.eraseIdx place).any (·.socket.isSome), ?_⟩
  have positive : downloads.length ≠ 0 := Nat.ne_zero_of_lt within
  simp only [remove, index, decreaseCount, bind, EStateM.bind, modify, modifyGet,
    MonadStateOf.modifyGet, Protected.modifyGet_returned, MonadState.get, getThe, MonadStateOf.get,
    Protected.get_returned, found, pure, EStateM.pure, if_neg positive, List.length_eraseIdx_of_lt within]
  rfl

end

end DataManager
end Services
end AdaWebServer

import AdaWebServer.Foundations.Execution
import AdaWebServer.Net.Filling
import AdaWebServer.Services.Downloads

/-!
# The download manager and the requests

Requests build downloads and ask for them with two protected operations each.  One task serves the
downloads that have a socket: it copies them to a socket set and sends some data of each, with
protected operations in between.
-/

namespace AdaWebServer
namespace Services

open Http2 (Exn Text image)
open Net Execution

/-- The parameters of the service. -/
structure DownloadConfig (σ : Type) where
  maxConcurrentDownload : Nat
  getFd : σ → Int

/-- Where a request is in `Build` or in `CB`. -/
inductive Caller (ρ σ : Type) where
  /-- Before the first protected operation or after the last one. -/
  | idle
  /-- `Get_UID` has returned in `Build`. -/
  | numbered (uid : Nat) (uri name : Text) (resource : ρ)
  /-- `Get` has returned in `CB`, with a download that can be started. -/
  | holding (info : DownloadInformation ρ σ)
  deriving DecidableEq

/-- Where the task is. -/
inductive ManagerStage (ρ σ : Type) where
  /-- At `Ready`. -/
  | ready
  /-- `Ready` has returned. -/
  | passed
  /-- `Shutdown` has returned false. -/
  | creating
  /-- `Create_Set` has returned. -/
  | waiting
  /-- In the loop, at a position of the set. -/
  | serving (position last : Nat)
  /-- In `Send_Header`. -/
  | heading (position last : Nat) (info : DownloadInformation ρ σ)
  /-- The header is marked as sent. -/
  | sending (position last : Nat) (info : DownloadInformation ρ σ)
  /-- `Done` is true. -/
  | removing (position last : Nat) (info : DownloadInformation ρ σ)
  /-- The main loop has been left. -/
  | terminated
  /-- The task has been ended by an exception. -/
  | failed (exn : Exn)
  deriving DecidableEq

/-- What became of sending the header and some data. -/
inductive SendOutcome where
  /-- Data have been written. -/
  | more
  /-- The stream has ended, the socket is flushed and shut down. -/
  | finished
  /-- `Socket_Error` has been raised. -/
  | socketError
  deriving DecidableEq

/-- The steps of the requests and of the task. -/
inductive DownloadStep (ρ σ : Type) where
  | getUid (caller : Nat) (uri name : Text) (resource : ρ)
  | insert (caller : Nat) (now : Int)
  | get (caller : Nat) (uri : Text) (clock : Nat → Int)
  | update (caller : Nat) (socket : σ)
  | setShutdown
  | ready
  | shutdown
  | createSet
  | wait (polled : Nat → EventsType)
  | serve
  | sendHeader
  | sendData (outcome : SendOutcome)
  | remove

/-- The protected object, the requests, the task and its socket set. -/
structure Downloading (ρ σ : Type) where
  data : DataManager ρ σ := {}
  callers : Nat → Caller ρ σ := fun _ => .idle
  stage : ManagerStage ρ σ := .ready
  set : SocketSet σ (DownloadInformation ρ σ) := none

/-- `Key_URI`. -/
def keyUri (uri : Text) (uid : Nat) : Text := uri ++ 36 :: image uid

namespace Downloading

variable {ρ σ : Type}

/-- The download that `Build` inserts. -/
def built (uid : Nat) (uri name : Text) (resource : ρ) (now : Int) : DownloadInformation ρ σ where
  uri := keyUri uri uid
  name := name
  rUri := uri
  started := false
  header := false
  stream := resource
  socket := none
  position := 0
  index := 1
  timeStamp := now

/-- What `CB` makes of a download that can be started, with the socket of the request. -/
def started (socket : σ) (info : DownloadInformation ρ σ) : DownloadInformation ρ σ :=
  if info.started then { info with socket := some socket } else { info with started := true }

/-- A request goes on. -/
def setCaller (state : Downloading ρ σ) (caller : Nat) (stage : Caller ρ σ) : Downloading ρ σ :=
  { state with callers := Function.update state.callers caller stage }

/-- The step is the next one of its task, and the barrier is open if it is an entry.  The socket of
a request is open. -/
def Possible (config : DownloadConfig σ) (state : Downloading ρ σ) : DownloadStep ρ σ → Prop
  | .getUid caller _ _ _ | .get caller _ _ => state.callers caller = .idle
  | .insert caller _ =>
      ∃ uid uri name resource, state.callers caller = .numbered uid uri name resource
  | .update caller socket => (∃ info, state.callers caller = .holding info) ∧ 0 ≤ config.getFd socket
  | .setShutdown => True
  | .ready => state.stage = .ready ∧ (state.data.socketPresent ∨ state.data.closing)
  | .shutdown => state.stage = .passed
  | .createSet => state.stage = .creating
  | .wait _ => state.stage = .waiting
  | .serve => ∃ position last, state.stage = .serving position last
  | .sendHeader => ∃ position last info, state.stage = .heading position last info
  | .sendData _ => ∃ position last info, state.stage = .sending position last info
  | .remove => ∃ position last info, state.stage = .removing position last info

instance (caller : Caller ρ σ) :
    Decidable (∃ uid uri name resource, caller = .numbered uid uri name resource) :=
  match caller with
  | .numbered uid uri name resource => isTrue ⟨uid, uri, name, resource, rfl⟩
  | .idle | .holding _ => isFalse fun ⟨_, _, _, _, is⟩ => by cases is

instance (caller : Caller ρ σ) : Decidable (∃ info, caller = .holding info) :=
  match caller with
  | .holding info => isTrue ⟨info, rfl⟩
  | .idle | .numbered _ _ _ _ => isFalse fun ⟨_, is⟩ => by cases is

instance (stage : ManagerStage ρ σ) : Decidable (∃ position last, stage = .serving position last) :=
  match stage with
  | .serving position last => isTrue ⟨position, last, rfl⟩
  | .ready | .passed | .creating | .waiting | .heading _ _ _ | .sending _ _ _ | .removing _ _ _
  | .terminated | .failed _ => isFalse fun ⟨_, _, is⟩ => by cases is

instance (stage : ManagerStage ρ σ) :
    Decidable (∃ position last info, stage = .heading position last info) :=
  match stage with
  | .heading position last info => isTrue ⟨position, last, info, rfl⟩
  | .ready | .passed | .creating | .waiting | .serving _ _ | .sending _ _ _ | .removing _ _ _
  | .terminated | .failed _ => isFalse fun ⟨_, _, _, is⟩ => by cases is

instance (stage : ManagerStage ρ σ) :
    Decidable (∃ position last info, stage = .sending position last info) :=
  match stage with
  | .sending position last info => isTrue ⟨position, last, info, rfl⟩
  | .ready | .passed | .creating | .waiting | .serving _ _ | .heading _ _ _ | .removing _ _ _
  | .terminated | .failed _ => isFalse fun ⟨_, _, _, is⟩ => by cases is

instance (stage : ManagerStage ρ σ) :
    Decidable (∃ position last info, stage = .removing position last info) :=
  match stage with
  | .removing position last info => isTrue ⟨position, last, info, rfl⟩
  | .ready | .passed | .creating | .waiting | .serving _ _ | .heading _ _ _ | .sending _ _ _
  | .terminated | .failed _ => isFalse fun ⟨_, _, _, is⟩ => by cases is

instance [DecidableEq ρ] [DecidableEq σ] (config : DownloadConfig σ) (state : Downloading ρ σ)
    (step : DownloadStep ρ σ) : Decidable (Possible config state step) := by
  unfold Possible
  match step with
  | .getUid _ _ _ _ | .get _ _ _ | .insert _ _ | .update _ _ | .setShutdown | .ready | .shutdown
  | .createSet | .wait _ | .serve | .sendHeader | .sendData _ | .remove => infer_instance

/-- A turn of the loop of the task up to the first protected operation or the sending, and the end of
the loop. -/
def serve (state : Downloading ρ σ) (position last : Nat) : Downloading ρ σ :=
  if last < position then
    match SocketSet.reset state.set with
    | .ok _ set => { state with set, stage := .ready }
    | .error exn set => { state with set, stage := .failed exn }
  else
    match state.set.status position with
    | .error exn => { state with stage := .failed exn }
    | .ok events =>
        if events.output then
          match state.set.getData position with
          | none => { state with stage := .failed .constraintError }
          | some info =>
              { state with
                stage := if info.header then .sending position last info
                  else .heading position last info }
        else if events.error then
          match state.set.getData position with
          | none => { state with stage := .failed .constraintError }
          | some info => { state with stage := .removing position last info }
        else { state with stage := .serving (position + 1) last }

/-- `Send_Header` up to the end of `Update`. -/
def sendHeader (state : Downloading ρ σ) (position last : Nat) (info : DownloadInformation ρ σ) :
    Downloading ρ σ :=
  match info.socket with
  | none => { state with stage := .failed .constraintError }
  | some _ =>
      let info := { info with header := true }
      match DataManager.update info state.data with
      | .ok _ data => { state with data, stage := .sending position last info }
      | .error exn data => { state with data, stage := .failed exn }

/-- The rest of `Send_Header`, `Send_Data` and what follows up to `Remove`. -/
def sendData (state : Downloading ρ σ) (position last : Nat) (info : DownloadInformation ρ σ)
    (outcome : SendOutcome) : Downloading ρ σ :=
  match info.socket with
  | none => { state with stage := .failed .constraintError }
  | some _ =>
      { state with
        stage := if outcome = .more then .serving (position + 1) last
          else .removing position last info }

/-- `Remove` and the end of the turn. -/
def remove (state : Downloading ρ σ) (position last : Nat) (info : DownloadInformation ρ σ) :
    Downloading ρ σ :=
  match DataManager.remove info state.data with
  | .ok _ data => { state with data, stage := .serving (position + 1) last }
  | .error exn data => { state with data, stage := .failed exn }

/-- One step. -/
def perform (config : DownloadConfig σ) (state : Downloading ρ σ) :
    DownloadStep ρ σ → Downloading ρ σ
  | .getUid caller uri name resource =>
      match DataManager.getUid state.data with
      | .ok uid data => { state with data }.setCaller caller (.numbered uid uri name resource)
      | .error _ data => { state with data }
  | .insert caller now =>
      match state.callers caller with
      | .numbered uid uri name resource =>
          match DataManager.insert (built uid uri name resource now) state.data with
          | .ok _ data | .error _ data => { state with data }.setCaller caller .idle
      | _ => state
  | .get caller uri clock =>
      match DataManager.get config.maxConcurrentDownload clock uri state.data with
      | .ok (some info) data =>
          { state with data }.setCaller caller (if info.position = 0 then .holding info else .idle)
      | .ok none data | .error _ data => { state with data }
  | .update caller socket =>
      match state.callers caller with
      | .holding info =>
          match DataManager.update (started socket info) state.data with
          | .ok _ data | .error _ data => { state with data }.setCaller caller .idle
      | _ => state
  | .setShutdown =>
      match DataManager.setShutdown state.data with
      | .ok _ data | .error _ data => { state with data }
  | .ready => { state with stage := .passed }
  | .shutdown => { state with stage := if state.data.closing then .terminated else .creating }
  | .createSet =>
      match DataManager.createSet config.getFd config.maxConcurrentDownload state.data.downloads
          state.set with
      | .ok _ set => { state with set, stage := .waiting }
      | .error exn set => { state with set, stage := .failed exn }
  | .wait polled =>
      match SocketSet.wait polled state.set with
      | .ok _ set => { state with set, stage := .serving 1 set.count }
      | .error exn set => { state with set, stage := .failed exn }
  | .serve =>
      match state.stage with
      | .serving position last => state.serve position last
      | _ => state
  | .sendHeader =>
      match state.stage with
      | .heading position last info => state.sendHeader position last info
      | _ => state
  | .sendData outcome =>
      match state.stage with
      | .sending position last info => state.sendData position last info outcome
      | _ => state
  | .remove =>
      match state.stage with
      | .removing position last info => state.remove position last info
      | _ => state

/-- The steps of the system. -/
def Steps (config : DownloadConfig σ) : Downloading ρ σ → DownloadStep ρ σ → Downloading ρ σ → Prop :=
  Performs (Possible config) (perform config)

end Downloading
end Services
end AdaWebServer

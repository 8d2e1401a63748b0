import AdaWebServer.Foundations.Execution
import AdaWebServer.Session.Accounts

/-!
# The cleaner

The cleaner selects expired sessions in one protected call, and then runs the callback for each of
them and deletes it in another.  In between the other tasks go on using the sessions.
-/

namespace AdaWebServer
namespace Session

open Execution

/-- Where the cleaner is.  The identifiers that it still has to treat come with the serial numbers of
the sessions that have been selected. -/
inductive CleanerStage where
  /-- At the `select` statement. -/
  | waiting
  /-- Behind `Prepare_Expired_SID`. -/
  | selected (expired : List (Id × Nat))
  /-- In the loop, with whether `L_SC /= null`. -/
  | looping (hasCallback : Bool) (expired : List (Id × Nat))
  /-- At `Delete_Session`. -/
  | deleting (hasCallback : Bool) (sid : Id) (serial : Nat) (later : List (Id × Nat))
  deriving DecidableEq

/-- What the cleaner has selected and has not yet deleted. -/
def CleanerStage.chosen : CleanerStage → List (Id × Nat)
  | .waiting => []
  | .selected expired => expired
  | .looping _ expired => expired
  | .deleting _ sid serial later => (sid, serial) :: later

/-- What it has selected and not yet come to. -/
def CleanerStage.pending : CleanerStage → List (Id × Nat)
  | .waiting => []
  | .selected expired => expired
  | .looping _ expired => expired
  | .deleting _ _ _ later => later

/-- The session that it is about to delete. -/
def CleanerStage.current : CleanerStage → Option Nat
  | .deleting _ _ serial _ => some serial
  | .waiting | .selected _ | .looping _ _ => none

/-- The database, the clock, the cleaner, and what the cleaner has done: the sessions that it has
deleted, with the times, and those for which it has run the callback. -/
structure Expiration where
  db : Database
  now : Int := 0
  cleaner : CleanerStage := .waiting
  deletions : List (Nat × Int) := []
  notified : List Nat := []

/-- Steps of the clock, of the request tasks and of the cleaner. -/
inductive ExpirationStep where
  | elapse (duration : Nat)
  | request (call : Request)
  | prepare
  | readCallback (isSet : Bool)
  | notify
  | delete
  | finish

namespace Expiration

variable (noSession : Id) (lifetime : Int)

/-- A database without sessions. -/
def start : Expiration where
  db := { removeMark := noSession }

/-- The step is the next one of its task, and the barrier is open if it is a call of an entry. -/
def Possible (state : Expiration) : ExpirationStep → Prop
  | .elapse _ => True
  | .request call => call.Open state.db
  | .prepare => state.cleaner = .waiting
  | .readCallback _ => ∃ expired, state.cleaner = .selected expired
  | .notify => ∃ isSet entry later, state.cleaner = .looping isSet (entry :: later)
  | .delete => state.db.lockCounter = 0 ∧
      ∃ isSet sid serial later, state.cleaner = .deleting isSet sid serial later
  | .finish => ∃ isSet, state.cleaner = .looping isSet []

/-- Effect of a step. -/
def perform (state : Expiration) : ExpirationStep → Expiration
  | .elapse duration => { state with now := state.now + duration }
  | .request call => { state with db := call.perform state.now state.db }
  | .prepare =>
      let (found, db) := state.db.prepareExpiredSID noSession lifetime state.now
      { state with
        db := { db with uses := [], earlier := db.uses ++ db.earlier }
        cleaner := .selected (found.map fun entry => (entry.1, entry.2.serial)) }
  | .readCallback isSet =>
      match state.cleaner with
      | .selected expired => { state with cleaner := .looping isSet expired }
      | _ => state
  | .notify =>
      match state.cleaner with
      | .looping isSet ((sid, serial) :: later) =>
          { state with
            cleaner := .deleting isSet sid serial later
            notified := if isSet then serial :: state.notified else state.notified }
      | _ => state
  | .delete =>
      match state.cleaner with
      | .deleting isSet sid _ later =>
          { state with
            db := state.db.deleteSession sid
            cleaner := .looping isSet later
            deletions :=
              match state.db.sessions[sid]? with
              | some node => (node.serial, state.now) :: state.deletions
              | none => state.deletions }
      | _ => state
  | .finish => { state with cleaner := .waiting }

/-- The steps of all tasks, in any order. -/
def Step : Expiration → ExpirationStep → Expiration → Prop :=
  Performs Possible (perform noSession lifetime)

/-- The cleaner has deleted no session within the lifetime after a use of it, and has run the callback
at most once for each session. -/
structure Safe (state : Expiration) : Prop where
  unused : ∀ deletion ∈ state.deletions, ∀ use ∈ state.db.uses ++ state.db.earlier,
    use.serial = deletion.1 → use.time + lifetime < deletion.2
  notified_once : state.notified.Nodup

/-- The session that the cleaner deletes has not been used since the expired sessions were selected, or
only longer ago than the lifetime. -/
def Idle (state : Expiration) : ExpirationStep → Prop
  | .delete => ∀ entry ∈ state.cleaner.chosen.head?, ∀ node ∈ state.db.sessions[entry.1]?,
      ∀ use ∈ state.db.uses, use.serial = node.serial → use.time + lifetime < state.now
  | _ => True

end Expiration

/-! ## What is selected, and what is gone -/

namespace Database

/-- No session has the serial number any more. -/
def Gone (db : Database) (serial : Nat) : Prop :=
  serial < db.created ∧ ∀ (sid : Id) (node : SessionNode),
    db.sessions[sid]? = some node → node.serial ≠ serial

/-- A session has been selected under its identifier, after the lifetime behind its earlier uses. -/
structure Selected (lifetime now : Int) (db : Database) (entry : Id × Nat) : Prop where
  serial_lt : entry.2 < db.created
  own : ∀ {sid : Id} {node : SessionNode}, db.sessions[sid]? = some node →
    node.serial = entry.2 → sid = entry.1
  expired : ∀ {node : SessionNode}, db.sessions[entry.1]? = some node →
    ∀ use ∈ db.earlier, use.serial = node.serial → use.time + lifetime < now

variable {lifetime now : Int} {before after db : Database} {serial : Nat} {entry : Id × Nat}

theorem Gone.evolves (gone : before.Gone serial) (evolves : Evolves before after) :
    after.Gone serial := by
  refine ⟨lt_of_lt_of_le gone.1 evolves.created_le, fun sid node found same => ?_⟩
  rcases evolves.descends found with ⟨old, old_found, serials⟩ | fresh
  · exact gone.2 sid old old_found (serials.trans same)
  · exact absurd gone.1 (not_lt.mpr (same ▸ fresh))

theorem Selected.evolves (selected : before.Selected lifetime now entry)
    (sound : before.Sound now) (evolves : Evolves before after) :
    after.Selected lifetime now entry where
  serial_lt := lt_of_lt_of_le selected.serial_lt evolves.created_le
  own found same := by
    rcases evolves.descends found with ⟨old, old_found, serials⟩ | fresh
    · exact selected.own old_found (serials.trans same)
    · exact absurd selected.serial_lt (not_lt.mpr (same ▸ fresh))
  expired found use among same := by
    rw [evolves.earlier_eq] at among
    rcases evolves.descends found with ⟨old, old_found, serials⟩ | fresh
    · exact selected.expired old_found use among (same.trans serials.symm)
    · have known := (sound.used use (List.mem_append_right _ among)).1
      exact absurd known (not_lt.mpr (same ▸ fresh))

theorem Selected.later (selected : db.Selected lifetime now entry) (duration : Nat) :
    db.Selected lifetime (now + duration) entry where
  serial_lt := selected.serial_lt
  own := selected.own
  expired found use among same := by
    have before := selected.expired found use among same
    omega

theorem Sound.later (sound : db.Sound now) (duration : Nat) : db.Sound (now + duration) where
  serial_lt := sound.serial_lt
  serial_unique := sound.serial_unique
  stamp_le found := by
    have before := sound.stamp_le found
    omega
  stamped := sound.stamped
  used use among := by
    obtain ⟨known, past⟩ := sound.used use among
    exact ⟨known, by omega⟩

theorem Selected.gone_deleteSession (selected : db.Selected lifetime now entry) :
    (db.deleteSession entry.1).Gone entry.2 := by
  refine ⟨selected.serial_lt, fun sid node found same => ?_⟩
  rw [deleteSession, getElem?_erase_iff] at found
  exact found.1 (selected.own found.2 same)

theorem Sound.gone_deleteSession (sound : db.Sound now) {sid : Id} {node : SessionNode}
    (found : db.sessions[sid]? = some node) : (db.deleteSession sid).Gone node.serial := by
  refine ⟨sound.serial_lt found, fun other node' found' same => ?_⟩
  rw [deleteSession, getElem?_erase_iff] at found'
  exact found'.1 (sound.serial_unique found'.2 found same)

end Database
/-! ## The invariant -/

namespace Expiration

/-- What holds in every state that idle steps lead to. -/
structure Sound (lifetime : Int) (state : Expiration) : Prop where
  db : state.db.Sound state.now
  unused : ∀ deletion ∈ state.deletions, ∀ use ∈ state.db.uses ++ state.db.earlier,
    use.serial = deletion.1 → use.time + lifetime < deletion.2
  deleted : ∀ deletion ∈ state.deletions, state.db.Gone deletion.1
  selected : ∀ entry ∈ state.cleaner.chosen, state.db.Selected lifetime state.now entry
  chosen_nodup : (state.cleaner.chosen.map Prod.snd).Nodup
  notified_nodup : state.notified.Nodup
  notified_gone : ∀ serial ∈ state.notified, state.cleaner.current ≠ some serial →
    state.db.Gone serial
  pending_fresh : ∀ entry ∈ state.cleaner.pending, entry.2 ∉ state.notified

variable {noSession : Id} {lifetime : Int} {state next : Expiration}

theorem sound_start (noSession : Id) (lifetime : Int) : Sound lifetime (start noSession) where
  db := {
    serial_lt := fun found => by simp [start] at found
    serial_unique := fun found => by simp [start] at found
    stamp_le := fun found => by simp [start] at found
    stamped := fun found => by simp [start] at found
    used := fun use among => by simp [start] at among }
  unused := by simp [start]
  deleted := by simp [start]
  selected := by simp [start, CleanerStage.chosen]
  chosen_nodup := List.nodup_nil
  notified_nodup := List.nodup_nil
  notified_gone := by simp [start]
  pending_fresh := by simp [start]

theorem Sound.safe (sound : Sound lifetime state) : Safe lifetime state :=
  ⟨sound.unused, sound.notified_nodup⟩

theorem Sound.elapse (sound : Sound lifetime state) (duration : Nat) :
    Sound lifetime { state with now := state.now + duration } :=
  { sound with
    db := sound.db.later duration
    selected := fun entry among => (sound.selected entry among).later duration }

theorem Sound.request (sound : Sound lifetime state) (call : Request) :
    Sound lifetime { state with db := call.perform state.now state.db } := by
  have advances := Database.advances_perform state.now state.db call
  have evolves := advances.toEvolves
  refine ⟨advances.keeps sound.db, ?_, fun deletion among => (sound.deleted deletion among).evolves
    evolves, fun entry among => (sound.selected entry among).evolves sound.db evolves,
    sound.chosen_nodup, sound.notified_nodup,
    fun serial among elsewhere => (sound.notified_gone serial among elsewhere).evolves evolves,
    sound.pending_fresh⟩
  intro deletion among use recorded same
  have gone := sound.deleted deletion among
  rw [evolves.earlier_eq] at recorded
  rcases List.mem_append.mp recorded with recent | earlier
  · rcases evolves.uses use recent with old | fresh | ⟨sid, node, found, serials⟩
    · exact sound.unused deletion among use (List.mem_append_left _ old) same
    · exact absurd gone.1 (not_lt.mpr (same ▸ fresh))
    · exact absurd (serials.trans same) (gone.2 sid node found)
  · exact sound.unused deletion among use (List.mem_append_right _ earlier) same

/-- The selection of expired sessions. -/
theorem Sound.prepare (sound : Sound lifetime state) (noSession : Id)
    (waiting : state.cleaner = .waiting) :
    Sound lifetime (perform noSession lifetime state .prepare) := by
  have nobody : state.cleaner.current = none := by rw [waiting]; rfl
  have chosen_of : ∀ {entry : Id × Nat},
      entry ∈ (state.db.prepareExpiredSID noSession lifetime state.now).1.map
        (fun entry => (entry.1, entry.2.serial)) →
      ∃ node, state.db.sessions[entry.1]? = some node ∧ node.serial = entry.2 ∧
        Database.Expired lifetime state.now node := by
    intro entry among
    obtain ⟨found, inside, rfl⟩ := List.mem_map.mp among
    obtain ⟨there, expired⟩ := Database.of_mem_prepareExpiredSID inside
    exact ⟨found.2, there, rfl, expired⟩
  constructor
  · exact {
      serial_lt := sound.db.serial_lt
      serial_unique := sound.db.serial_unique
      stamp_le := sound.db.stamp_le
      stamped := sound.db.stamped
      used := sound.db.used }
  · exact sound.unused
  · exact sound.deleted
  · intro entry among
    obtain ⟨node, there, serial_eq, expired⟩ := chosen_of among
    refine ⟨serial_eq ▸ sound.db.serial_lt there, ?_, ?_⟩
    · intro sid other found same
      exact sound.db.serial_unique found there (same.trans serial_eq.symm)
    · intro other found use recorded same
      rw [show state.db.sessions[entry.1]? = some other from found] at there
      cases there
      exact lt_of_le_of_lt (Int.add_le_add_right (sound.db.stamped found use recorded same) lifetime)
        expired
  · change ((List.map _ _).map Prod.snd).Nodup
    rw [List.map_map]
    exact sound.db.serials_nodup.sublist
      ((Database.prepareExpiredSID_sublist noSession lifetime state.now state.db).map _)
  · exact sound.notified_nodup
  · intro serial among _
    exact sound.notified_gone serial among (by rw [nobody]; exact nofun)
  · intro entry among notified
    obtain ⟨node, there, serial_eq, _⟩ := chosen_of among
    exact (sound.notified_gone entry.2 notified (by rw [nobody]; exact nofun)).2 _ node there
      serial_eq

/-- The cleaner goes on without a change of the database. -/
theorem Sound.goes_on {stage : CleanerStage} (sound : Sound lifetime state)
    (chosen : stage.chosen = state.cleaner.chosen)
    (pending : stage.pending = state.cleaner.pending)
    (current : stage.current = state.cleaner.current) :
    Sound lifetime { state with cleaner := stage } where
  db := sound.db
  unused := sound.unused
  deleted := sound.deleted
  selected entry among := sound.selected entry (chosen ▸ among)
  chosen_nodup := chosen ▸ sound.chosen_nodup
  notified_nodup := sound.notified_nodup
  notified_gone serial among elsewhere := sound.notified_gone serial among (current ▸ elsewhere)
  pending_fresh entry among := sound.pending_fresh entry (pending ▸ among)

/-- The callback is run for the next session. -/
theorem Sound.notify {isSet : Bool} {sid : Id} {serial : Nat} {later : List (Id × Nat)}
    (sound : Sound lifetime state) (here : state.cleaner = .looping isSet ((sid, serial) :: later)) :
    Sound lifetime { state with
      cleaner := .deleting isSet sid serial later
      notified := if isSet then serial :: state.notified else state.notified } := by
  have chosen : state.cleaner.chosen = (sid, serial) :: later := by rw [here]; rfl
  have pending : state.cleaner.pending = (sid, serial) :: later := by rw [here]; rfl
  have nobody : state.cleaner.current = none := by rw [here]; rfl
  have distinct := sound.chosen_nodup
  rw [chosen, List.map_cons, List.nodup_cons] at distinct
  have fresh := sound.pending_fresh
  rw [pending, List.forall_mem_cons] at fresh
  refine ⟨sound.db, sound.unused, sound.deleted, fun entry among => sound.selected entry
    (chosen ▸ among), List.nodup_cons.mpr distinct, ?_, ?_, ?_⟩
  · split
    · exact List.nodup_cons.mpr ⟨fresh.1, sound.notified_nodup⟩
    · exact sound.notified_nodup
  · intro other among elsewhere
    have different : other ≠ serial := fun same => elsewhere (congrArg some same.symm)
    have before : other ∈ state.notified := by
      split at among
      · exact (List.mem_cons.mp among).resolve_left different
      · exact among
    exact sound.notified_gone other before (by rw [nobody]; exact nofun)
  · intro entry among
    have different : entry.2 ≠ serial := fun same =>
      distinct.1 (List.mem_map.mpr ⟨entry, among, same⟩)
    split
    · exact List.not_mem_cons_of_ne_of_not_mem different (fresh.2 entry among)
    · exact fresh.2 entry among

/-- The next session is deleted. -/
theorem Sound.delete {isSet : Bool} {sid : Id} {serial : Nat} {later : List (Id × Nat)}
    (sound : Sound lifetime state) (here : state.cleaner = .deleting isSet sid serial later)
    (idle : ∀ node, state.db.sessions[sid]? = some node → ∀ use ∈ state.db.uses,
      use.serial = node.serial → use.time + lifetime < state.now) :
    Sound lifetime (perform noSession lifetime state .delete) := by
  have advances := Database.advances_deleteSession state.db sid state.now
  have evolves := advances.toEvolves
  have chosen : state.cleaner.chosen = (sid, serial) :: later := by rw [here]; rfl
  have pending : state.cleaner.pending = later := by rw [here]; rfl
  have current : state.cleaner.current = some serial := by rw [here]; rfl
  have selected := sound.selected
  rw [chosen, List.forall_mem_cons] at selected
  have distinct := sound.chosen_nodup
  rw [chosen, List.map_cons, List.nodup_cons] at distinct
  have recorded : ∀ deletion : Nat × Int, deletion ∈ (match state.db.sessions[sid]? with
      | some node => (node.serial, state.now) :: state.deletions
      | none => state.deletions) → deletion ∈ state.deletions ∨
      ∃ node, state.db.sessions[sid]? = some node ∧ deletion = (node.serial, state.now) := by
    intro deletion among
    split at among
    · next node found =>
        rcases List.mem_cons.mp among with same | old
        · exact .inr ⟨node, found, same⟩
        · exact .inl old
    · exact .inl among
  simp only [perform, here]
  refine ⟨advances.keeps sound.db, ?_, ?_, fun entry among => (selected.2 entry among).evolves
    sound.db evolves, distinct.2, sound.notified_nodup, ?_, fun entry among => sound.pending_fresh
    entry (pending ▸ among)⟩
  · intro deletion among use used same
    rcases recorded deletion among with old | ⟨node, found, rfl⟩
    · exact sound.unused deletion old use used same
    · rcases List.mem_append.mp used with recent | earlier
      · exact idle node found use recent same
      · exact selected.1.expired found use earlier same
  · intro deletion among
    rcases recorded deletion among with old | ⟨node, found, rfl⟩
    · exact (sound.deleted deletion old).evolves evolves
    · exact sound.db.gone_deleteSession found
  · intro other among _
    by_cases same : other = serial
    · subst same
      exact selected.1.gone_deleteSession
    · refine (sound.notified_gone other among ?_).evolves evolves
      rw [current]
      exact fun equal => same (Option.some.inj equal).symm

/-- Every idle step keeps the invariant. -/
theorem sound_of_step {step : ExpirationStep} (sound : Sound lifetime state)
    (stepped : Guarded (Idle lifetime) (Step noSession lifetime) state step next) :
    Sound lifetime next := by
  obtain ⟨idle, possible, rfl⟩ := stepped
  cases step with
  | elapse duration => exact sound.elapse duration
  | request call => exact sound.request call
  | prepare => exact sound.prepare noSession possible
  | readCallback isSet =>
      obtain ⟨expired, here⟩ := possible
      simp only [perform, here]
      exact sound.goes_on (by rw [here]; rfl) (by rw [here]; rfl) (by rw [here]; rfl)
  | notify =>
      obtain ⟨isSet, ⟨sid, serial⟩, later, here⟩ := possible
      simp only [perform, here]
      exact sound.notify here
  | delete =>
      obtain ⟨_, isSet, sid, serial, later, here⟩ := possible
      rw [Idle, here] at idle
      exact sound.delete here fun node found => idle (sid, serial) rfl node found
  | finish =>
      obtain ⟨isSet, here⟩ := possible
      exact sound.goes_on (by rw [here]; rfl) (by rw [here]; rfl) (by rw [here]; rfl)

/-- In every run in which the cleaner deletes idle sessions only, no session is deleted within the
lifetime after a use of it, and the callback is run at most once for each session. -/
theorem safe_of_idle_run {steps : List ExpirationStep}
    (run : Run (Guarded (Idle lifetime) (Step noSession lifetime)) (start noSession) steps state) :
    Safe lifetime state :=
  (run.invariant (Sound lifetime) (sound_start noSession lifetime) sound_of_step).safe

instance (lifetime : Int) (state : Expiration) : DecidablePred (state.Idle lifetime)
  | .delete => inferInstanceAs (Decidable (∀ entry ∈ state.cleaner.chosen.head?,
      ∀ node ∈ state.db.sessions[entry.1]?, ∀ use ∈ state.db.uses,
        use.serial = node.serial → use.time + lifetime < state.now))
  | .elapse _ | .request _ | .prepare | .readCallback _ | .notify | .finish => isTrue trivial

instance (state : Expiration) : DecidablePred state.Possible
  | .elapse _ => isTrue trivial
  | .request call => inferInstanceAs (Decidable (call.Open state.db))
  | .prepare => inferInstanceAs (Decidable (_ = _))
  | .readCallback _ =>
      match h : state.cleaner with
      | .selected expired => isTrue ⟨expired, h⟩
      | .waiting | .looping _ _ | .deleting _ _ _ _ => isFalse fun ⟨_, same⟩ => by cases h ▸ same
  | .notify =>
      match h : state.cleaner with
      | .looping isSet (entry :: later) => isTrue ⟨isSet, entry, later, h⟩
      | .looping _ [] | .waiting | .selected _ | .deleting _ _ _ _ =>
          isFalse fun ⟨_, _, _, same⟩ => by cases h ▸ same
  | .delete =>
      match h : state.cleaner with
      | .deleting isSet sid serial later =>
          decidable_of_iff (state.db.lockCounter = 0)
            ⟨fun unlocked => ⟨unlocked, isSet, sid, serial, later, h⟩, And.left⟩
      | .waiting | .selected _ | .looping _ _ =>
          isFalse fun ⟨_, _, _, _, _, same⟩ => by cases h ▸ same
  | .finish =>
      match h : state.cleaner with
      | .looping isSet [] => isTrue ⟨isSet, h⟩
      | .looping _ (_ :: _) | .waiting | .selected _ | .deleting _ _ _ _ =>
          isFalse fun ⟨_, same⟩ => by cases h ▸ same

/-- One of two sessions expires, while the other one is used. -/
def oneExpires : List ExpirationStep :=
  [.request (.newSession [[97]]), .request (.addSession [98]), .elapse 101,
    .request (.touchSession [98]), .prepare, .readCallback true, .notify,
    .request (.setValue [98] [107] [118]), .delete, .finish]

theorem safe_oneExpires : ∃ state : Expiration, state.deletions = [(0, 101)] ∧
    state.notified = [0] ∧ state.db.sessions.keys = [[98]] ∧ Safe 100 state := by
  have run : Run (Guarded (Idle 100) (Step [32] 100)) (start [32]) oneExpires
      (oneExpires.foldl (perform [32] 100) (start [32])) :=
    (@run_of_allPossible _ _ (start [32]) (fun state step => Idle 100 state step ∧ Possible state step)
      _ (perform [32] 100) oneExpires (by decide +kernel)).mono
        fun ⟨⟨idle, possible⟩, same⟩ => ⟨idle, possible, same⟩
  exact ⟨_, by decide +kernel, by decide +kernel, by decide +kernel, safe_of_idle_run run⟩

/-- A session is used after the cleaner has selected it, and deleted at once. -/
theorem used_session_deleted : ∃ (steps : List ExpirationStep) (state : Expiration),
    Run (Step [32] 100) (start [32]) steps state ∧ ¬ Safe 100 state := by
  have run : Run (Step [32] 100) (start [32])
      [.request (.newSession [[97]]), .elapse 101, .prepare, .readCallback false, .notify,
        .request (.touchSession [97]), .delete] _ := run_of_allPossible (by decide +kernel)
  refine ⟨_, _, run, fun safe => ?_⟩
  have unused := safe.unused (0, 101) (by decide +kernel) ⟨0, 101⟩ (by decide +kernel) rfl
  exact absurd unused (by decide)

end Expiration
end Session
end AdaWebServer

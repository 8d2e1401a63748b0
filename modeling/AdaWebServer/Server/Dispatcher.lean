import AdaWebServer.Foundations.Execution
import AdaWebServer.Foundations.Stages
import AdaWebServer.Utils.RwSemaphore

/-!
# Replacement of the dispatcher

A line that finds a new dispatcher installs it under the write semaphore before it serves its request
under the read semaphore.  The test is made outside of the semaphore, and `Set` does not use it.
-/

namespace AdaWebServer
namespace Server

open Http2 (Positive one_positive)
open Execution Stages Utils

/-- Where a line is in `Build_Answer` and `Call_For_Dispatcher`. -/
inductive LineStage where
  /-- Not at the dispatcher. -/
  | away
  /-- `New_Dispatcher /= null` has been found true. -/
  | replacing
  /-- In the queue of `Write`. -/
  | queued
  /-- `Write` has been granted. -/
  | writing
  /-- The old dispatcher has been freed. -/
  | freed
  /-- The new dispatcher has been installed. -/
  | installed
  /-- `New_Dispatcher` has been reset. -/
  | reset
  /-- At `Read`. -/
  | calling
  /-- `Read` has been granted. -/
  | reading
  /-- In `Dispatch`, with what `Dispatcher` was. -/
  | dispatching (handler : Option Nat)
  deriving DecidableEq

/-- Between `Write` and `Release_Write`. -/
def LineStage.Writes : LineStage → Prop
  | .writing | .freed | .installed | .reset => True
  | _ => False

/-- Between `Read` and `Release_Read`. -/
def LineStage.Reads : LineStage → Prop
  | .reading | .dispatching _ => True
  | _ => False

instance : DecidablePred LineStage.Writes
  | .writing | .freed | .installed | .reset => isTrue trivial
  | .away | .replacing | .queued | .calling | .reading | .dispatching _ => isFalse id

instance : DecidablePred LineStage.Reads
  | .reading | .dispatching _ => isTrue trivial
  | .away | .replacing | .queued | .writing | .freed | .installed | .reset | .calling => isFalse id

/-- The dispatchers of a server.  Allocated objects are numbered; the one in use at the start has the
number zero. -/
structure Handlers where
  dispatcher : Option Nat := some 0
  newDispatcher : Option Nat := none
  /-- How many objects have been allocated. -/
  allocated : Nat := 1
  /-- The objects that have been freed, the last one first. -/
  freed : List Nat := []
  /-- The last one given to `Set`. -/
  last : Nat := 0

namespace Handlers

/-- `Dispatchers.Free`. -/
def free (handlers : Handlers) : Option Nat → Handlers
  | none => handlers
  | some handler => { handlers with freed := handler :: handlers.freed }

/-- `Dispatchers.Free (HTTP_Server.Dispatcher)`. -/
def freeDispatcher (handlers : Handlers) : Handlers :=
  { handlers.free handlers.dispatcher with dispatcher := none }

/-- `HTTP_Server.Dispatcher := HTTP_Server.New_Dispatcher`. -/
def install (handlers : Handlers) : Handlers :=
  { handlers with dispatcher := handlers.newDispatcher }

/-- `HTTP_Server.New_Dispatcher := null`. -/
def resetNew (handlers : Handlers) : Handlers := { handlers with newDispatcher := none }

/-- First statement of `Set`, `Dispatchers.Free (Web_Server.New_Dispatcher)`. -/
def freeNew (handlers : Handlers) : Handlers :=
  { handlers.free handlers.newDispatcher with newDispatcher := none }

/-- Second statement of `Set`, which stores a clone of the dispatcher that is given. -/
def storeNew (handlers : Handlers) : Handlers :=
  { handlers with
    newDispatcher := some handlers.allocated
    allocated := handlers.allocated + 1
    last := handlers.allocated }

end Handlers

/-- Steps of the lines and of the calls of `Set`. -/
inductive DispatcherStep (Line Call : Type*) where
  | test (line : Line)
  | callWrite (line : Line)
  | write (line : Line)
  | free (line : Line)
  | install (line : Line)
  | reset (line : Line)
  | releaseWrite (line : Line)
  | read (line : Line)
  | dispatch (line : Line)
  | releaseRead (line : Line)
  | setFree (call : Call)
  | setStore (call : Call)

/-- The dispatchers, `Dispatcher_Sem`, the lines, and the calls of `Set` between their statements. -/
structure Dispatching (Line Call : Type*) where
  handlers : Handlers := {}
  sem : RwSemaphore := {}
  lines : Line → LineStage := fun _ => .away
  setting : Finset Call := ∅

namespace Dispatching

variable {Line Call : Type*} [Fintype Line] [DecidableEq Line] [DecidableEq Call]

/-- Discriminant of `Dispatcher_Sem`. -/
def writers : Positive := ⟨1, one_positive⟩

/-- `Write'Count`. -/
def writeCount (state : Dispatching Line Call) : Nat :=
  (occupants (· = .queued) state.lines).card

/-- The task is at the step, and the barrier is open if the step is an entry. -/
def Possible (state : Dispatching Line Call) : DispatcherStep Line Call → Prop
  | .test line => state.lines line = .away
  | .callWrite line => state.lines line = .replacing
  | .write line => state.lines line = .queued ∧ state.sem.WriteOpen writers
  | .free line => state.lines line = .writing
  | .install line => state.lines line = .freed
  | .reset line => state.lines line = .installed
  | .releaseWrite line => state.lines line = .reset
  | .read line => state.lines line = .calling ∧ state.sem.ReadOpen state.writeCount
  | .dispatch line => state.lines line = .reading
  | .releaseRead line => ∃ handler, state.lines line = .dispatching handler
  | .setFree call => call ∉ state.setting
  | .setStore call => call ∈ state.setting

/-- The line is at another stage. -/
def move (state : Dispatching Line Call) (line : Line) (stage : LineStage) : Dispatching Line Call :=
  { state with lines := Function.update state.lines line stage }

/-- Effect of a step. -/
def perform (state : Dispatching Line Call) : DispatcherStep Line Call → Dispatching Line Call
  | .test line =>
      state.move line (if state.handlers.newDispatcher.isSome then .replacing else .calling)
  | .callWrite line => state.move line .queued
  | .write line => { state.move line .writing with sem := state.sem.write }
  | .free line => { state.move line .freed with handlers := state.handlers.freeDispatcher }
  | .install line => { state.move line .installed with handlers := state.handlers.install }
  | .reset line => { state.move line .reset with handlers := state.handlers.resetNew }
  | .releaseWrite line => { state.move line .calling with sem := state.sem.releaseWrite }
  | .read line => { state.move line .reading with sem := state.sem.read }
  | .dispatch line => state.move line (.dispatching state.handlers.dispatcher)
  | .releaseRead line => { state.move line .away with sem := state.sem.releaseRead }
  | .setFree call =>
      { state with handlers := state.handlers.freeNew, setting := insert call state.setting }
  | .setStore call =>
      { state with handlers := state.handlers.storeNew, setting := state.setting.erase call }

/-- The steps of all tasks, in any order. -/
def Step : Dispatching Line Call → DispatcherStep Line Call → Dispatching Line Call → Prop :=
  Performs Possible perform

/-- What is expected of the replacement. -/
structure Safe (state : Dispatching Line Call) : Prop where
  /-- A dispatcher is installed as long as it is used, and has not been freed. -/
  in_use : ∀ line, (state.lines line).Reads → ∃ handler,
    state.handlers.dispatcher = some handler ∧ handler ∉ state.handlers.freed ∧
      ∀ used, state.lines line = .dispatching used → used = some handler
  /-- No dispatcher is freed twice. -/
  freed_once : state.handlers.freed.Nodup
  /-- The last one given is installed or pending, unless a call of `Set` is about to store another. -/
  last_kept : state.setting.Nonempty ∨ state.handlers.last ∉ state.handlers.freed ∧
    (state.handlers.dispatcher = some state.handlers.last ∨
      state.handlers.newDispatcher = some state.handlers.last)

/-- A line frees the old dispatcher for a new one that is there or about to be stored, and installs
one that is there; no statement of `Set` falls between an installation and the reset behind it. -/
def Orderly (state : Dispatching Line Call) : DispatcherStep Line Call → Prop
  | .free _ => state.handlers.newDispatcher ≠ none ∨ state.setting.Nonempty
  | .install _ => state.handlers.newDispatcher ≠ none
  | .setFree _ => ∀ line, state.lines line ≠ .installed
  | .setStore _ => ∀ line, state.lines line ≠ .installed
  | _ => True

instance (stage : LineStage) : Decidable (∃ handler, stage = .dispatching handler) :=
  match stage with
  | .dispatching handler => isTrue ⟨handler, rfl⟩
  | .away | .replacing | .queued | .writing | .freed | .installed | .reset | .calling | .reading =>
      isFalse fun ⟨_, same⟩ => nomatch same

instance (state : Dispatching Line Call) : DecidablePred state.Possible
  | .test _ | .callWrite _ | .free _ | .install _ | .reset _ | .releaseWrite _ | .dispatch _ =>
      inferInstanceAs (Decidable (_ = _))
  | .write _ | .read _ => inferInstanceAs (Decidable (_ ∧ _))
  | .releaseRead line => inferInstanceAs (Decidable (∃ handler, state.lines line = .dispatching handler))
  | .setFree _ => inferInstanceAs (Decidable (_ ∉ _))
  | .setStore _ => inferInstanceAs (Decidable (_ ∈ _))

instance (state : Dispatching Line Call) : DecidablePred state.Orderly
  | .free _ => inferInstanceAs (Decidable (_ ∨ _))
  | .install _ => inferInstanceAs (Decidable (_ ≠ _))
  | .setFree _ | .setStore _ => inferInstanceAs (Decidable (∀ line, state.lines line ≠ .installed))
  | .test _ | .callWrite _ | .write _ | .reset _ | .releaseWrite _ | .read _ | .dispatch _
  | .releaseRead _ => isTrue trivial

end Dispatching

/-! ## The objects -/

namespace Handlers

/-- What is installed and what is pending has not been freed, and nothing has been freed twice. -/
structure Intact (handlers : Handlers) : Prop where
  dispatcher_live : ∀ handler, handlers.dispatcher = some handler →
    handler < handlers.allocated ∧ handler ∉ handlers.freed
  new_live : ∀ handler, handlers.newDispatcher = some handler →
    handler < handlers.allocated ∧ handler ∉ handlers.freed
  freed_lt : ∀ handler ∈ handlers.freed, handler < handlers.allocated
  freed_once : handlers.freed.Nodup

/-- The pending dispatcher is not the installed one. -/
def Apart (handlers : Handlers) : Prop :=
  ∀ handler, handlers.dispatcher = some handler → handlers.newDispatcher ≠ some handler

variable {handlers : Handlers}

theorem free_eq (handlers : Handlers) (handler : Option Nat) :
    ∃ freed, handlers.free handler = { handlers with freed } := by
  cases handler with
  | none => exact ⟨_, rfl⟩
  | some _ => exact ⟨_, rfl⟩

@[simp]
theorem freeDispatcher_newDispatcher :
    handlers.freeDispatcher.newDispatcher = handlers.newDispatcher := by
  obtain ⟨freed, same⟩ := handlers.free_eq handlers.dispatcher
  rw [freeDispatcher, same]

@[simp]
theorem freeDispatcher_last : handlers.freeDispatcher.last = handlers.last := by
  obtain ⟨freed, same⟩ := handlers.free_eq handlers.dispatcher
  rw [freeDispatcher, same]

@[simp]
theorem freeNew_dispatcher : handlers.freeNew.dispatcher = handlers.dispatcher := by
  obtain ⟨freed, same⟩ := handlers.free_eq handlers.newDispatcher
  rw [freeNew, same]

theorem intact_start : Intact {} where
  dispatcher_live := by simp
  new_live := by simp
  freed_lt := by simp
  freed_once := List.nodup_nil

theorem Intact.freeDispatcher (intact : handlers.Intact) (apart : handlers.Apart) :
    handlers.freeDispatcher.Intact := by
  obtain ⟨dispatcher_live, new_live, freed_lt, freed_once⟩ := intact
  cases installed : handlers.dispatcher with
  | none =>
      simp only [Handlers.freeDispatcher, installed, Handlers.free]
      exact ⟨by simp, new_live, freed_lt, freed_once⟩
  | some old =>
      obtain ⟨old_lt, old_live⟩ := dispatcher_live old installed
      simp only [Handlers.freeDispatcher, installed, Handlers.free]
      refine ⟨by simp, ?_, ?_, List.nodup_cons.mpr ⟨old_live, freed_once⟩⟩
      · intro handler pending
        obtain ⟨handler_lt, live⟩ := new_live handler pending
        refine ⟨handler_lt, List.not_mem_cons_of_ne_of_not_mem ?_ live⟩
        rintro rfl
        exact apart handler installed pending
      · exact List.forall_mem_cons.mpr ⟨old_lt, freed_lt⟩

theorem Intact.install (intact : handlers.Intact) : handlers.install.Intact :=
  ⟨intact.new_live, intact.new_live, intact.freed_lt, intact.freed_once⟩

theorem Intact.resetNew (intact : handlers.Intact) : handlers.resetNew.Intact :=
  ⟨intact.dispatcher_live, by simp [Handlers.resetNew], intact.freed_lt, intact.freed_once⟩

theorem Intact.freeNew (intact : handlers.Intact) (apart : handlers.Apart) :
    handlers.freeNew.Intact := by
  obtain ⟨dispatcher_live, new_live, freed_lt, freed_once⟩ := intact
  cases pending : handlers.newDispatcher with
  | none =>
      simp only [Handlers.freeNew, pending, Handlers.free]
      exact ⟨dispatcher_live, by simp, freed_lt, freed_once⟩
  | some old =>
      obtain ⟨old_lt, old_live⟩ := new_live old pending
      simp only [Handlers.freeNew, pending, Handlers.free]
      refine ⟨?_, by simp, ?_, List.nodup_cons.mpr ⟨old_live, freed_once⟩⟩
      · intro handler installed
        obtain ⟨handler_lt, live⟩ := dispatcher_live handler installed
        refine ⟨handler_lt, List.not_mem_cons_of_ne_of_not_mem ?_ live⟩
        rintro rfl
        exact apart handler installed pending
      · exact List.forall_mem_cons.mpr ⟨old_lt, freed_lt⟩

theorem Intact.storeNew (intact : handlers.Intact) : handlers.storeNew.Intact where
  dispatcher_live handler installed := by
    obtain ⟨handler_lt, live⟩ := intact.dispatcher_live handler installed
    exact ⟨Nat.lt_succ_of_lt handler_lt, live⟩
  new_live handler pending := by
    obtain rfl := Option.some.inj pending
    exact ⟨Nat.lt_succ_self _, fun freed => lt_irrefl _ (intact.freed_lt _ freed)⟩
  freed_lt handler freed := Nat.lt_succ_of_lt (intact.freed_lt handler freed)
  freed_once := intact.freed_once

end Handlers

namespace Dispatching

variable {Line Call : Type*}

/-! ## The invariant -/

section Invariant

variable [Fintype Line]

/-- What holds as long as the steps are orderly. -/
structure Sound (state : Dispatching Line Call) : Prop where
  guards : state.sem.Guards writers (occupants LineStage.Reads state.lines)
    (occupants LineStage.Writes state.lines)
  intact : state.handlers.Intact
  /-- No dispatcher is installed between a deallocation and the installation behind it only. -/
  absent : state.handlers.dispatcher = none → ∃ line, state.lines line = .freed
  /-- What is pending is the last one given. -/
  new_last : ∀ handler, state.handlers.newDispatcher = some handler →
    handler = state.handlers.last
  /-- The pending dispatcher is installed between an installation and the reset behind it only. -/
  shared : ¬ state.handlers.Apart → ∃ line, state.lines line = .installed
  resetting : ∀ line, state.lines line = .installed →
    state.handlers.dispatcher = some state.handlers.last
  kept : state.handlers.newDispatcher = none →
    state.setting.Nonempty ∨ state.handlers.dispatcher = some state.handlers.last
  used : ∀ line handler, state.lines line = .dispatching handler →
    handler = state.handlers.dispatcher

theorem sound_start : Sound ({} : Dispatching Line Call) where
  guards := by
    rw [occupants_eq_empty fun _ => id, occupants_eq_empty fun _ => id]
    exact RwSemaphore.guards_start
  intact := Handlers.intact_start
  absent := by simp
  new_last := by simp
  shared := by simp [Handlers.Apart]
  resetting := by simp
  kept := by simp
  used := by simp

variable {state : Dispatching Line Call} {line other : Line} {stage target : LineStage}

theorem Sound.single (sound : Sound state) (first : (state.lines line).Writes)
    (second : (state.lines other).Writes) : line = other :=
  occupant_unique sound.guards.limited first second

theorem Sound.present (sound : Sound state) (elsewhere : ∀ line, state.lines line ≠ .freed) :
    ∃ handler, state.handlers.dispatcher = some handler := by
  refine Option.ne_none_iff_exists'.mp fun nothing => ?_
  obtain ⟨line, here⟩ := sound.absent nothing
  exact elsewhere line here

theorem Sound.apart (sound : Sound state) (elsewhere : ∀ line, state.lines line ≠ .installed) :
    state.handlers.Apart := by
  by_contra shared
  obtain ⟨line, here⟩ := sound.shared shared
  exact elsewhere line here

theorem Sound.safe (sound : Sound state) : Safe state where
  in_use := by
    intro line reads
    obtain ⟨handler, installed⟩ := sound.present fun other here =>
      sound.guards.no_reader (mem_occupants.mpr (by rw [here]; trivial)) line
        (mem_occupants.mpr reads)
    refine ⟨handler, installed, (sound.intact.dispatcher_live handler installed).2, ?_⟩
    intro used dispatching
    rw [sound.used line used dispatching, installed]
  freed_once := sound.intact.freed_once
  last_kept := by
    cases pending : state.handlers.newDispatcher with
    | some handler =>
        have same := sound.new_last handler pending
        subst same
        exact .inr ⟨(sound.intact.new_live _ pending).2, .inr rfl⟩
    | none =>
        refine (sound.kept pending).imp_right fun installed => ?_
        exact ⟨(sound.intact.dispatcher_live _ installed).2, .inl installed⟩

/-- A line in the write section is the only one there. -/
theorem Sound.alone (sound : Sound state) (here : state.lines line = stage) (writes : stage.Writes)
    (there : state.lines other = target) (target_writes : target.Writes) : target = stage := by
  subst here there
  rw [sound.single writes target_writes]

theorem Sound.nobody_dispatches (sound : Sound state) (writes : (state.lines line).Writes)
    {handler : Option Nat} : state.lines other ≠ .dispatching handler := by
  intro dispatching
  exact sound.guards.no_reader (mem_occupants.mpr writes) other
    (mem_occupants.mpr (by rw [dispatching]; trivial))

variable [DecidableEq Call]

/-- First statement of `Set`. -/
theorem Sound.setFree (sound : Sound state) (call : Call)
    (orderly : ∀ line, state.lines line ≠ .installed) :
    Sound { state with
      handlers := state.handlers.freeNew, setting := insert call state.setting } where
  guards := sound.guards
  intact := sound.intact.freeNew (sound.apart orderly)
  absent nothing := by
    rw [Handlers.freeNew_dispatcher] at nothing
    exact sound.absent nothing
  new_last handler pending := nomatch pending
  shared shared := absurd (fun handler _ pending => nomatch pending) shared
  resetting line installed := absurd installed (orderly line)
  kept _ := .inl (Finset.insert_nonempty call state.setting)
  used line handler dispatching := by
    rw [Handlers.freeNew_dispatcher]
    exact sound.used line handler dispatching

/-- Second statement of `Set`. -/
theorem Sound.setStore (sound : Sound state) (call : Call)
    (orderly : ∀ line, state.lines line ≠ .installed) :
    Sound { state with
      handlers := state.handlers.storeNew, setting := state.setting.erase call } where
  guards := sound.guards
  intact := sound.intact.storeNew
  absent := sound.absent
  new_last handler pending := (Option.some.inj pending).symm
  shared shared := by
    refine absurd (fun handler installed pending => ?_) shared
    obtain rfl := Option.some.inj pending
    exact lt_irrefl _ (sound.intact.dispatcher_live _ installed).1
  resetting line installed := absurd installed (orderly line)
  kept nothing := nomatch nothing
  used := sound.used

end Invariant

/-! ## Steps -/

variable [DecidableEq Line] {state : Dispatching Line Call} {line other : Line}
  {stage target : LineStage}

/-- Another stage of a line is not one that it goes to. -/
theorem lines_of_move (state : Dispatching Line Call) (different : stage ≠ target)
    (here : Function.update state.lines line stage other = target) :
    state.lines other = target := by
  rw [Function.update_apply] at here
  split at here
  · exact absurd here different
  · exact here

theorem exists_of_move (elsewhere : state.lines line ≠ target)
    (somewhere : ∃ other, state.lines other = target) :
    ∃ other, Function.update state.lines line stage other = target := by
  obtain ⟨other, here⟩ := somewhere
  refine ⟨other, ?_⟩
  rw [Function.update_of_ne _, here]
  rintro rfl
  exact elsewhere here

variable [Fintype Line]

/-- A step that leaves the dispatchers alone. -/
theorem Sound.move (sound : Sound state) {sem : RwSemaphore} (not_freed : state.lines line ≠ .freed)
    (not_installed : state.lines line ≠ .installed) (not_to_installed : stage ≠ .installed)
    (dispatches : ∀ handler, stage = .dispatching handler → handler = state.handlers.dispatcher)
    (guards : sem.Guards writers
      (occupants LineStage.Reads (Function.update state.lines line stage))
      (occupants LineStage.Writes (Function.update state.lines line stage))) :
    Sound { state.move line stage with sem } where
  guards := guards
  intact := sound.intact
  absent nothing := exists_of_move not_freed (sound.absent nothing)
  new_last := sound.new_last
  shared same := exists_of_move not_installed (sound.shared same)
  resetting other here := sound.resetting other (lines_of_move state not_to_installed here)
  kept := sound.kept
  used other handler here := by
    change Function.update state.lines line stage other = _ at here
    rw [Function.update_apply] at here
    split at here
    · exact dispatches handler here
    · exact sound.used other handler here

/-- The line stays inside or outside of both sections. -/
theorem Sound.guards_stay (sound : Sound state)
    (reads : (state.lines line).Reads ↔ stage.Reads)
    (writes : (state.lines line).Writes ↔ stage.Writes) :
    state.sem.Guards writers
      (occupants LineStage.Reads (Function.update state.lines line stage))
      (occupants LineStage.Writes (Function.update state.lines line stage)) := by
  rw [occupants_stay reads, occupants_stay writes]
  exact sound.guards

/-- `Dispatchers.Free (HTTP_Server.Dispatcher)`. -/
theorem Sound.free (sound : Sound state) (here : state.lines line = .writing)
    (orderly : state.handlers.newDispatcher ≠ none ∨ state.setting.Nonempty) :
    Sound { state.move line .freed with handlers := state.handlers.freeDispatcher } where
  guards := sound.guards_stay (by rw [here]; exact Iff.rfl) (by rw [here]; exact Iff.rfl)
  intact := sound.intact.freeDispatcher <| sound.apart fun other installed =>
    nomatch sound.alone here trivial installed trivial
  absent _ := ⟨line, Function.update_self ..⟩
  new_last handler pending := by
    rw [Handlers.freeDispatcher_newDispatcher] at pending
    rw [Handlers.freeDispatcher_last]
    exact sound.new_last handler pending
  shared shared := absurd (fun handler installed => nomatch installed) shared
  resetting other installed :=
    nomatch sound.alone here trivial (lines_of_move state (by simp) installed) trivial
  kept nothing := by
    rw [Handlers.freeDispatcher_newDispatcher] at nothing
    exact .inl (orderly.resolve_left fun pending => pending nothing)
  used other handler dispatching := by
    have inside := lines_of_move state (by simp) dispatching
    exact absurd inside (sound.nobody_dispatches (by rw [here]; trivial))

/-- `HTTP_Server.Dispatcher := HTTP_Server.New_Dispatcher`. -/
theorem Sound.install (sound : Sound state) (here : state.lines line = .freed)
    (orderly : state.handlers.newDispatcher ≠ none) :
    Sound { state.move line .installed with handlers := state.handlers.install } where
  guards := sound.guards_stay (by rw [here]; exact Iff.rfl) (by rw [here]; exact Iff.rfl)
  intact := sound.intact.install
  absent nothing := absurd nothing orderly
  new_last := sound.new_last
  shared _ := ⟨line, Function.update_self ..⟩
  resetting _ _ := by
    obtain ⟨handler, pending⟩ := Option.ne_none_iff_exists'.mp orderly
    change state.handlers.newDispatcher = some state.handlers.last
    rw [pending, sound.new_last handler pending]
  kept nothing := absurd nothing orderly
  used other handler dispatching := by
    have inside := lines_of_move state (by simp) dispatching
    exact absurd inside (sound.nobody_dispatches (by rw [here]; trivial))

/-- `HTTP_Server.New_Dispatcher := null`. -/
theorem Sound.reset (sound : Sound state) (here : state.lines line = .installed) :
    Sound { state.move line .reset with handlers := state.handlers.resetNew } where
  guards := sound.guards_stay (by rw [here]; exact Iff.rfl) (by rw [here]; exact Iff.rfl)
  intact := sound.intact.resetNew
  absent nothing := by
    have installed := sound.resetting line here
    rw [show state.handlers.dispatcher = none from nothing] at installed
    cases installed
  new_last handler pending := nomatch pending
  shared shared := absurd (fun handler _ pending => nomatch pending) shared
  resetting _ _ := sound.resetting line here
  kept _ := .inr (sound.resetting line here)
  used other handler dispatching := by
    have inside := lines_of_move state (by simp) dispatching
    exact absurd inside (sound.nobody_dispatches (by rw [here]; trivial))


variable [DecidableEq Call] {next : Dispatching Line Call}

theorem sound_of_step {step : DispatcherStep Line Call} (sound : Sound state)
    (stepped : Guarded Orderly Step state step next) : Sound next := by
  obtain ⟨orderly, possible, rfl⟩ := stepped
  cases step with
  | test line =>
      have here : state.lines line = .away := possible
      rw [perform]
      cases state.handlers.newDispatcher.isSome
      · exact sound.move (by simp [here]) (by simp [here]) (by simp) (by simp)
          (sound.guards_stay (by rw [here]; exact Iff.rfl) (by rw [here]; exact Iff.rfl))
      · exact sound.move (by simp [here]) (by simp [here]) (by simp) (by simp)
          (sound.guards_stay (by rw [here]; exact Iff.rfl) (by rw [here]; exact Iff.rfl))
  | callWrite line =>
      have here : state.lines line = .replacing := possible
      exact sound.move (by simp [here]) (by simp [here]) (by simp) (by simp)
        (sound.guards_stay (by rw [here]; exact Iff.rfl) (by rw [here]; exact Iff.rfl))
  | write line =>
      have here : state.lines line = .queued := possible.1
      refine sound.move (by simp [here]) (by simp [here]) (by simp) (by simp) ?_
      rw [occupants_stay (by rw [here]; exact Iff.rfl), occupants_enter trivial]
      exact sound.guards.enter_write possible.2 (by simp [mem_occupants, here, LineStage.Writes])
  | free line => exact sound.free possible orderly
  | install line => exact sound.install possible orderly
  | reset line => exact sound.reset possible
  | releaseWrite line =>
      have here : state.lines line = .reset := possible
      refine sound.move (by simp [here]) (by simp [here]) (by simp) (by simp) ?_
      rw [occupants_stay (by rw [here]; exact Iff.rfl), occupants_leave id]
      exact sound.guards.leave_write (by simp [mem_occupants, here, LineStage.Writes])
  | read line =>
      have here : state.lines line = .calling := possible.1
      refine sound.move (by simp [here]) (by simp [here]) (by simp) (by simp) ?_
      rw [occupants_enter trivial, occupants_stay (by rw [here]; exact Iff.rfl)]
      exact sound.guards.enter_read possible.2 (by simp [mem_occupants, here, LineStage.Reads])
  | dispatch line =>
      have here : state.lines line = .reading := possible
      exact sound.move (by simp [here]) (by simp [here]) (by simp)
        (fun handler same => (LineStage.dispatching.inj same).symm)
        (sound.guards_stay (by rw [here]; exact Iff.rfl) (by rw [here]; exact Iff.rfl))
  | releaseRead line =>
      obtain ⟨handler, here⟩ := possible
      refine sound.move (by simp [here]) (by simp [here]) (by simp) (by simp) ?_
      rw [occupants_leave id, occupants_stay (by rw [here]; exact Iff.rfl)]
      exact sound.guards.leave_read (by simp [mem_occupants, here, LineStage.Reads])
  | setFree call => exact sound.setFree call orderly
  | setStore call => exact sound.setStore call orderly

/-- In every run of orderly steps, the dispatcher that is used is installed and alive, none is freed
twice, and none that is given to `Set` is lost. -/
theorem safe_of_run {steps : List (DispatcherStep Line Call)} {state : Dispatching Line Call}
    (run : Run (Guarded Orderly Step) {} steps state) : Safe state :=
  (run.invariant Sound sound_start sound_of_step).safe

/-- Two calls of `Set`, and a line that installs the dispatcher of the second one. -/
def secondInstalled : List (DispatcherStep (Fin 2) Unit) :=
  [.setFree (), .setStore (), .test 0, .setFree (), .setStore (), .callWrite 0, .write 0, .free 0,
    .install 0, .reset 0, .releaseWrite 0, .read 0, .dispatch 0]

theorem safe_secondInstalled : ∃ state : Dispatching (Fin 2) Unit,
    state.handlers.dispatcher = some 2 ∧ state.handlers.freed = [0, 1] ∧ Safe state := by
  have run : Run (Guarded Orderly Step) {} secondInstalled (secondInstalled.foldl perform {}) :=
    (@run_of_allPossible _ _ {} (fun state step => Orderly state step ∧ Possible state step) _
      perform secondInstalled (by decide +kernel)).mono
        fun ⟨⟨orderly, possible⟩, same⟩ => ⟨orderly, possible, same⟩
  exact ⟨_, by decide +kernel, by decide +kernel, safe_of_run run⟩

/-- Two lines find the new dispatcher, and the second one frees it and installs nothing. -/
theorem null_installed : ∃ (steps : List (DispatcherStep (Fin 2) Unit))
    (state : Dispatching (Fin 2) Unit), Run Step {} steps state ∧
      state.lines 1 = .dispatching none ∧ ¬ Safe state := by
  have run : Run Step ({} : Dispatching (Fin 2) Unit)
      [.setFree (), .setStore (), .test 0, .test 1, .callWrite 0, .write 0, .free 0, .install 0,
        .reset 0, .releaseWrite 0, .callWrite 1, .write 1, .free 1, .install 1, .reset 1,
        .releaseWrite 1, .read 1, .dispatch 1] _ := run_of_allPossible (by decide +kernel)
  refine ⟨_, _, run, by decide +kernel, fun safe => ?_⟩
  obtain ⟨handler, _, _, installed⟩ := safe.in_use 1 (by decide +kernel)
  exact nomatch installed none (by decide +kernel)

end Dispatching
end Server
end AdaWebServer

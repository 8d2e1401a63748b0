import Mathlib.Tactic.Common

/-!
# Loops that may not end

A loop is run for at most a number of turns.  A computation with such loops raises, gives a result, or
has not ended.  What it may do is specified by the ways in which it may stop and by a property of its
result, and is proved turn by turn.
-/

namespace AdaWebServer

/-- Why a computation gives no result. -/
inductive Stop (Failure : Type) where
  /-- It has raised. -/
  | raised (failure : Failure)
  /-- It has not ended within the turns that it was given. -/
  | unfinished
  deriving DecidableEq

/-- What a turn of a loop decides. -/
inductive Turn (State Result : Type) where
  | again (state : State)
  | leave (result : Result)

variable {Failure State Result α β : Type}

/-- A computation that may not end. -/
abbrev Trial (Failure α : Type) := Except (Stop Failure) α

/-- A loop for at most a number of turns. -/
def turns (turn : State → Trial Failure (Turn State Result)) : Nat → State → Trial Failure Result
  | 0, _ => .error .unfinished
  | times + 1, state => do
      match ← turn state with
      | .again next => turns turn times next
      | .leave result => return result

/-- The computation stops in one of the ways that it may, or gives a result with the property. -/
def Meets (may : Stop Failure → Prop) (property : α → Prop) (computation : Trial Failure α) : Prop :=
  (∃ stop, computation = .error stop ∧ may stop) ∨ ∃ result, computation = .ok result ∧ property result

namespace Meets

variable {may : Stop Failure → Prop} {property stronger : α → Prop} {later : β → Prop}
  {computation : Trial Failure α} {next : α → Trial Failure β}

theorem ok {result : α} (holds : property result) :
    Meets may property (.ok result : Trial Failure α) :=
  .inr ⟨result, rfl, holds⟩

theorem stop {stop : Stop Failure} (allowed : may stop) :
    Meets may property (.error stop : Trial Failure α) :=
  .inl ⟨stop, rfl, allowed⟩

/-- One computation after another. -/
theorem bind (meets : Meets may property computation)
    (continues : ∀ result, property result → Meets may later (next result)) :
    Meets may later (computation >>= next) := by
  obtain ⟨stop, stopped, allowed⟩ | ⟨result, returned, holds⟩ := meets
  · rw [stopped]
    exact .stop allowed
  · rw [returned]
    exact continues result holds

end Meets

/-- What a turn decides keeps an invariant, or gives a result with the property. -/
def Turn.Keeps (Invariant : State → Prop) (property : Result → Prop) : Turn State Result → Prop
  | .again state => Invariant state
  | .leave result => property result

section Turns

variable {may : Stop Failure → Prop} {turn : State → Trial Failure (Turn State Result)}
  {Invariant : Nat → State → Prop} {property : Result → Prop}

/-- A loop ends if every turn that asks for another one makes a measure smaller; if it may fail to end,
every turn only has to keep the invariant. -/
theorem meets_turns
    (keeps : ∀ measure state, Invariant measure state → Meets may
      (Turn.Keeps (fun next => ∃ smaller, (smaller < measure ∨ may .unfinished) ∧
        Invariant smaller next) property) (turn state))
    {times measure : Nat} {state : State} (start : Invariant measure state)
    (enough : measure < times ∨ may .unfinished) :
    Meets may property (turns turn times state) := by
  induction times generalizing measure state with
  | zero => exact .stop (enough.resolve_left (Nat.not_lt_zero _))
  | succ times ih =>
      rw [turns]
      refine (keeps measure state start).bind fun decision decided => ?_
      cases decision with
      | again next =>
          obtain ⟨smaller, progress, invariant⟩ := decided
          refine ih invariant ?_
          obtain less | unfinished := progress
          · exact enough.imp_left fun enough => by omega
          · exact .inr unfinished
      | leave result => exact .ok decided

theorem turns_again {times : Nat} {state next : State} (decided : turn state = .ok (.again next)) :
    turns turn (times + 1) state = turns turn times next := by
  rw [turns, decided]
  rfl

theorem turns_leave {times : Nat} {state : State} {result : Result}
    (decided : turn state = .ok (.leave result)) : turns turn (times + 1) state = .ok result := by
  rw [turns, decided]
  rfl

theorem turns_stop {times : Nat} {state : State} {stop : Stop Failure}
    (stopped : turn state = .error stop) : turns turn (times + 1) state = .error stop := by
  rw [turns, stopped]
  rfl

/-- More turns change nothing for a loop that has ended. -/
theorem turns_stable {times more : Nat} {state : State}
    (ended : turns turn times state ≠ .error .unfinished) (enough : times ≤ more) :
    turns turn more state = turns turn times state := by
  induction times generalizing more state with
  | zero => exact absurd rfl ended
  | succ times ih =>
      obtain ⟨more, rfl⟩ : ∃ rest, more = rest + 1 := ⟨more - 1, by omega⟩
      rw [turns] at ended
      rw [turns, turns]
      cases decided : turn state with
      | error stop => rfl
      | ok decision =>
          rw [decided] at ended
          cases decision with
          | again next => exact ih ended (by omega)
          | leave result => rfl

/-- The result does not depend on how many turns were enough. -/
theorem turns_result_eq {times others : Nat} {state : State} {result other : Result}
    (ended : turns turn times state = .ok result)
    (other_ended : turns turn others state = .ok other) : result = other := by
  have ended_ne : turns turn times state ≠ .error .unfinished := by
    rw [ended]
    exact nofun
  have other_ne : turns turn others state ≠ .error .unfinished := by
    rw [other_ended]
    exact nofun
  have same := (turns_stable ended_ne (Nat.le_max_left times others)).symm.trans
    (turns_stable other_ne (Nat.le_max_right times others))
  rw [ended, other_ended] at same
  exact Except.ok.inj same

end Turns

/-! ## Two computations that agree -/

namespace Agree

variable {α' β' State' Result' : Type} {Related : α → β → Prop} {Related' : α' → β' → Prop}

end Agree
end AdaWebServer

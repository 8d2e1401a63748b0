import Mathlib.Tactic.Common
import Mathlib.Tactic.SplitIfs

/-!
# Runs of a labelled step relation

A run is a sequence of labelled steps from a start.  What holds at the start and is preserved by
every step holds after every run; a guard restricts the steps of a run to those that satisfy a
condition on the state before the step and its label.
-/

namespace AdaWebServer
namespace Execution

variable {State Label : Type*}

/-- Runs from a start: the labels of their steps and the state they lead to. -/
inductive Run (step : State → Label → State → Prop) (start : State) : List Label → State → Prop
  /-- The run without steps. -/
  | nil : Run step start [] start
  /-- One more step at the end of a run. -/
  | snoc {labels : List Label} {state next : State} {label : Label}
      (earlier : Run step start labels state) (last : step state label next) :
      Run step start (labels ++ [label]) next

/-- The steps that satisfy a condition on the state before them. -/
def Guarded (guard : State → Label → Prop) (step : State → Label → State → Prop) :
    State → Label → State → Prop :=
  fun state label next => guard state label ∧ step state label next

variable {step : State → Label → State → Prop} {start : State}

/-- What every step preserves holds after every run. -/
theorem Run.invariant (property : State → Prop) (initially : property start)
    (preserved : ∀ {state next : State} {label : Label},
      property state → step state label next → property next)
    {labels : List Label} {state : State} (run : Run step start labels state) :
    property state := by
  induction run with
  | nil => exact initially
  | snoc _ last ih => exact preserved ih last

/-- A run of steps of one kind is a run of steps of any kind that includes it. -/
theorem Run.mono {wider : State → Label → State → Prop}
    (included : ∀ {state next : State} {label : Label},
      step state label next → wider state label next)
    {labels : List Label} {state : State} (run : Run step start labels state) :
    Run wider start labels state := by
  induction run with
  | nil => exact .nil
  | snoc _ last ih => exact .snoc ih (included last)

/-- A guarded run is a run. -/
theorem Run.of_guarded {guard : State → Label → Prop} {labels : List Label} {state : State}
    (run : Run (Guarded guard step) start labels state) : Run step start labels state :=
  run.mono And.right

/-- A run whose labels all meet a condition is a guarded run. -/
theorem Run.guarded_of_forall {allowed : Label → Prop} {labels : List Label} {state : State}
    (run : Run step start labels state) (all : ∀ label ∈ labels, allowed label) :
    Run (Guarded (fun _ => allowed) step) start labels state := by
  induction run with
  | nil => exact .nil
  | snoc _ last ih =>
      rw [List.forall_mem_append] at all
      exact .snoc (ih all.1) ⟨all.2 _ List.mem_cons_self, last⟩

/-- One more step at the start of a run. -/
theorem Run.cons {state final : State} {label : Label} {labels : List Label}
    (first : step start label state) (run : Run step state labels final) :
    Run step start (label :: labels) final := by
  induction run with
  | nil => exact .snoc .nil first
  | snoc _ last ih => exact .snoc ih last

/-! ## Computed runs -/

section Computed

variable {Failure : Type*}

/-- The steps of a partial function. -/
def Computes (next : State → Label → Except Failure State) (before : State) (label : Label)
    (after : State) : Prop :=
  next before label = .ok after

/-- Follow a partial function along the labels as long as a condition holds. -/
def follow (guard : State → Label → Prop) [∀ state label, Decidable (guard state label)]
    (next : State → Label → Except Failure State) : State → List Label → Option State
  | state, [] => some state
  | state, label :: labels =>
      if guard state label then
        match next state label with
        | .ok after => follow guard next after labels
        | .error _ => none
      else
        none

/-- What has been followed is a guarded run. -/
theorem run_of_follow {guard : State → Label → Prop}
    [∀ state label, Decidable (guard state label)]
    {next : State → Label → Except Failure State} {labels : List Label} {final : State}
    (followed : follow guard next start labels = some final) :
    Run (Guarded guard (Computes next)) start labels final := by
  induction labels generalizing start with
  | nil =>
      cases followed
      exact .nil
  | cons label labels ih =>
      rw [follow] at followed
      split_ifs at followed with guarded
      cases stepped : next start label with
      | error failure =>
          rw [stepped] at followed
          cases followed
      | ok after =>
          rw [stepped] at followed
          exact .cons ⟨guarded, stepped⟩ (ih followed)

/-- What has been followed is a guarded run to a state with a property that can be decided. -/
theorem exists_run_of_follow {guard : State → Label → Prop}
    [∀ state label, Decidable (guard state label)] {property : State → Prop}
    [DecidablePred property] {next : State → Label → Except Failure State} {labels : List Label}
    (holds : (follow guard next start labels).any fun state => property state) :
    ∃ final, Run (Guarded guard (Computes next)) start labels final ∧ property final := by
  cases followed : follow guard next start labels with
  | none =>
      rw [followed] at holds
      cases holds
  | some final =>
      rw [followed] at holds
      exact ⟨final, run_of_follow followed, of_decide_eq_true holds⟩

end Computed

/-! ## Runs of a total function -/

section Performed

/-- The steps of a function on the labels that are possible. -/
def Performs (possible : State → Label → Prop) (perform : State → Label → State) (before : State)
    (label : Label) (after : State) : Prop :=
  possible before label ∧ after = perform before label

variable {possible : State → Label → Prop} [∀ state label, Decidable (possible state label)]
  {perform : State → Label → State}

variable (possible perform) in
/-- All labels are possible, one after the other. -/
def allPossible : State → List Label → Bool
  | _, [] => true
  | state, label :: labels =>
      decide (possible state label) && allPossible (perform state label) labels

/-- Labels that are possible one after the other are the labels of a run. -/
theorem run_of_allPossible {labels : List Label}
    (all : allPossible possible perform start labels = true) :
    Run (Performs possible perform) start labels (labels.foldl perform start) := by
  induction labels generalizing start with
  | nil => exact .nil
  | cons label labels ih =>
      rw [allPossible, Bool.and_eq_true] at all
      exact .cons ⟨of_decide_eq_true all.1, rfl⟩ (ih all.2)

end Performed

end Execution
end AdaWebServer

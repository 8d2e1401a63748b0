import Mathlib.Tactic.Common

/-!
# What stateful operations preserve

An operation on a state returns a result or raises an exception, and in both cases leaves a state.
A property is kept by an operation if it holds of that state whenever it holds before.
-/

namespace AdaWebServer
namespace Protected

variable {Failure State α β : Type}

/-- The state that an operation leaves. -/
def left : EStateM.Result Failure State α → State
  | .ok _ state => state
  | .error _ state => state

section Computation

variable {first : EStateM Failure State α} {second : α → EStateM Failure State β} {state next : State}

theorem bind_returned {result : α} (returned : first state = .ok result next) :
    (first >>= second) state = second result next := by
  change EStateM.bind first second state = _
  rw [EStateM.bind, returned]

theorem bind_raised {failure : Failure} (raised : first state = .error failure next) :
    (first >>= second) state = .error failure next := by
  change EStateM.bind first second state = _
  rw [EStateM.bind, raised]

theorem get_returned : EStateM.get state = (.ok state state : EStateM.Result Failure State State) :=
  rfl

theorem modifyGet_returned {change : State → α × State} :
    EStateM.modifyGet change state =
      (.ok (change state).1 (change state).2 : EStateM.Result Failure State α) :=
  rfl

theorem get_bind {second : State → EStateM Failure State β} :
    (get >>= second) state = second state state :=
  rfl

theorem modify_bind {change : State → State} {second : PUnit → EStateM Failure State β} :
    ((modify change : EStateM Failure State PUnit) >>= second) state = second ⟨⟩ (change state) :=
  rfl

/-- A loop over a list goes on after a turn that returns. -/
theorem forM_returned {item : β} {items : List β} {body : β → EStateM Failure State PUnit}
    (returned : body item state = .ok ⟨⟩ next) :
    (item :: items).forM body state = items.forM body next :=
  bind_returned returned

end Computation

/-- What holds of a result and of the state that is left with it. -/
def Ensures (returns : α → State → Prop) (raises : Failure → State → Prop) :
    EStateM.Result Failure State α → Prop
  | .ok result state => returns result state
  | .error failure state => raises failure state

section Ensured

variable {returns weaker : α → State → Prop} {later : β → State → Prop}
  {raises : Failure → State → Prop} {state : State}

theorem Ensures.mono {result : EStateM.Result Failure State α}
    (ensures : Ensures returns raises result)
    (weaken : ∀ value state, returns value state → weaker value state) :
    Ensures weaker raises result := by
  cases result with
  | ok value state => exact weaken value state ensures
  | error failure state => exact ensures

theorem Ensures.mono_raises {raises' : Failure → State → Prop}
    {result : EStateM.Result Failure State α} (ensures : Ensures returns raises result)
    (weaken : ∀ failure state, raises failure state → raises' failure state) :
    Ensures returns raises' result := by
  cases result with
  | ok value state => exact ensures
  | error failure state => exact weaken failure state ensures

theorem Ensures.of_never {result : EStateM.Result Failure State α}
    (ensures : Ensures returns (fun _ _ => False) result) : Ensures returns raises result := by
  cases result with
  | ok value state => exact ensures
  | error failure state => exact ensures.elim

/-- One operation after another. -/
theorem Ensures.bind {first : EStateM Failure State α} {second : α → EStateM Failure State β}
    (ensures : Ensures returns raises (first state))
    (continues : ∀ value state, returns value state → Ensures later raises (second value state)) :
    Ensures later raises ((first >>= second) state) := by
  cases done : first state with
  | ok value next =>
      rw [done] at ensures
      rw [bind_returned done]
      exact continues value next ensures
  | error failure next =>
      rw [done] at ensures
      rw [bind_raised done]
      exact ensures

/-- A loop over a list keeps what its turns keep. -/
theorem ensures_forM {invariant : State → Prop} {items : List β}
    {body : β → EStateM Failure State PUnit}
    (keeps : ∀ item ∈ items, ∀ state, invariant state →
      Ensures (fun _ => invariant) raises (body item state)) (holds : invariant state) :
    Ensures (fun _ => invariant) raises (items.forM body state) := by
  induction items generalizing state with
  | nil => exact holds
  | cons item items ih =>
      exact (keeps item List.mem_cons_self state holds).bind fun _ next kept =>
        ih (fun other among => keeps other (List.mem_cons_of_mem item among)) kept

end Ensured

/-- The operation keeps a property of the state, whether it returns or raises. -/
def Keeps (property : State → Prop) (operation : EStateM Failure State α) : Prop :=
  ∀ state, property state → property (left (operation state))

variable {property : State → Prop}

theorem keeps_pure (result : α) : Keeps property (pure result : EStateM Failure State α) :=
  fun _ holds => holds

theorem keeps_throw (failure : Failure) :
    Keeps property (throw failure : EStateM Failure State α) :=
  fun _ holds => holds

theorem keeps_modify {change : State → State}
    (preserved : ∀ state, property state → property (change state)) :
    Keeps property (modify change : EStateM Failure State PUnit) :=
  preserved

/-- One operation after another. -/
theorem Keeps.bind {first : EStateM Failure State α} {second : α → EStateM Failure State β}
    (keeps_first : Keeps property first) (keeps_second : ∀ result, Keeps property (second result)) :
    Keeps property (first >>= second) := by
  intro state holds
  have after_first := keeps_first state holds
  change property (left (EStateM.bind first second state))
  rw [EStateM.bind]
  cases done : first state with
  | ok result next =>
      rw [done] at after_first
      exact keeps_second result next after_first
  | error failure next =>
      rw [done] at after_first
      exact after_first

/-- An operation that starts by looking at the state. -/
theorem keeps_get_bind {next : State → EStateM Failure State α}
    (preserved : ∀ state, property state → property (left (next state state))) :
    Keeps property (get >>= next) :=
  preserved

theorem Keeps.ite {condition : Prop} [Decidable condition] {first second : EStateM Failure State α}
    (keeps_first : condition → Keeps property first)
    (keeps_second : ¬condition → Keeps property second) :
    Keeps property (if condition then first else second) := by
  by_cases holds : condition
  · rw [if_pos holds]
    exact keeps_first holds
  · rw [if_neg holds]
    exact keeps_second holds

end Protected
end AdaWebServer

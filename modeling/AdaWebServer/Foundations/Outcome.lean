import Mathlib.Tactic.Common

/-!
# Computations that return exactly under a condition

A computation that may raise is specified by the condition under which it returns, and by what holds of
its result then.
-/

namespace AdaWebServer

variable {Failure α β : Type}

/-- The computation returns a result with a property if a condition holds, and raises otherwise. -/
structure Outcome (condition : Prop) (property : α → Prop) (computation : Except Failure α) :
    Prop where
  returns : condition → ∃ result, computation = .ok result ∧ property result
  raises : ¬condition → ∃ failure, computation = .error failure

namespace Outcome

variable {condition other : Prop} {property : α → Prop} {property' : β → Prop}
  {computation : Except Failure α} {next : α → Except Failure β}

theorem pure {result : α} (holds : property result) :
    Outcome True property (.ok result : Except Failure α) where
  returns _ := ⟨result, rfl, holds⟩
  raises never := absurd trivial never

/-- One computation after another. -/
theorem bind (first : Outcome condition property computation)
    (second : ∀ result, property result → Outcome other property' (next result)) :
    Outcome (condition ∧ other) property' (computation >>= next) := by
  constructor
  · rintro ⟨possible, also⟩
    obtain ⟨result, returned, holds⟩ := first.returns possible
    rw [returned]
    exact (second result holds).returns also
  · intro impossible
    by_cases possible : condition
    · obtain ⟨result, returned, holds⟩ := first.returns possible
      rw [returned]
      exact (second result holds).raises fun also => impossible ⟨possible, also⟩
    · obtain ⟨failure, raised⟩ := first.raises possible
      rw [raised]
      exact ⟨failure, rfl⟩

/-- The result is changed by a function. -/
theorem map (first : Outcome condition property computation) {change : α → β}
    (changed : ∀ result, property result → property' (change result)) :
    Outcome condition property' (computation >>= fun result => .ok (change result)) := by
  have both := first.bind fun result holds => @pure Failure β property' _ (changed result holds)
  exact ⟨fun possible => both.returns ⟨possible, trivial⟩,
    fun impossible => both.raises fun possible => impossible possible.1⟩

/-- A weaker property. -/
theorem mono {weaker : α → Prop} (outcome : Outcome condition property computation)
    (implies : ∀ result, property result → weaker result) :
    Outcome condition weaker computation where
  returns possible := by
    obtain ⟨result, returned, holds⟩ := outcome.returns possible
    exact ⟨result, returned, implies result holds⟩
  raises := outcome.raises

theorem congr (outcome : Outcome condition property computation) (same : condition ↔ other) :
    Outcome other property computation where
  returns possible := outcome.returns (same.mpr possible)
  raises impossible := outcome.raises fun possible => impossible (same.mp possible)

theorem eq_ok_imp (outcome : Outcome condition property computation) {result : α}
    (returned : computation = .ok result) : condition ∧ property result := by
  by_cases possible : condition
  · obtain ⟨found, returned', holds⟩ := outcome.returns possible
    rw [returned] at returned'
    cases returned'
    exact ⟨possible, holds⟩
  · obtain ⟨failure, raised⟩ := outcome.raises possible
    rw [returned] at raised
    cases raised

end Outcome
end AdaWebServer

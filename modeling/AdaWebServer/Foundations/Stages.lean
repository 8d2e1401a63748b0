import Mathlib.Data.Fintype.Basic
import Mathlib.Data.Finset.Card
import Mathlib.Tactic.Common

/-!
# Tasks at stages

Each task of a finite family is at a stage of its program.  The tasks inside a part of the program
are those at a stage of this part; a task that goes on enters the part, leaves it, or does neither.
-/

namespace AdaWebServer
namespace Stages

variable {Task Stage : Type*} [Fintype Task]
variable {inside : Stage → Prop} [DecidablePred inside] {stages : Task → Stage} {task : Task}
  {stage : Stage}

/-- The tasks at a stage inside a part of the program. -/
def occupants (inside : Stage → Prop) [DecidablePred inside] (stages : Task → Stage) :
    Finset Task :=
  Finset.univ.filter fun task => inside (stages task)

theorem mem_occupants : task ∈ occupants inside stages ↔ inside (stages task) := by
  simp [occupants]

theorem occupants_eq_empty (outside : ∀ task, ¬ inside (stages task)) :
    occupants inside stages = ∅ :=
  Finset.filter_eq_empty_iff.mpr fun task _ => outside task

/-- Two tasks inside a part that has room for one are the same. -/
theorem occupant_unique (single : (occupants inside stages).card ≤ 1) {first second : Task}
    (first_inside : inside (stages first)) (second_inside : inside (stages second)) :
    first = second :=
  Finset.card_le_one.mp single first (mem_occupants.mpr first_inside) second
    (mem_occupants.mpr second_inside)

variable [DecidableEq Task]

theorem occupants_enter (entered : inside stage) :
    occupants inside (Function.update stages task stage) =
      insert task (occupants inside stages) := by
  ext other
  rw [mem_occupants, Finset.mem_insert, mem_occupants, Function.update_apply]
  split
  · next same => simp [same, entered]
  · next different => simp [different]

theorem occupants_leave (left : ¬ inside stage) :
    occupants inside (Function.update stages task stage) =
      (occupants inside stages).erase task := by
  ext other
  rw [mem_occupants, Finset.mem_erase, mem_occupants, Function.update_apply]
  split
  · next same => simp [same, left]
  · next different => simp [different]

theorem occupants_stay (same : inside (stages task) ↔ inside stage) :
    occupants inside (Function.update stages task stage) = occupants inside stages := by
  ext other
  rw [mem_occupants, mem_occupants, Function.update_apply]
  split
  · next here => rw [here, same]
  · rfl

end Stages
end AdaWebServer

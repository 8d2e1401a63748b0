import AdaWebServer.Http2.Basic
import Mathlib.Data.Finset.Card

/-!
# The read/write semaphore

Many readers can be inside at a time, or a limited number of writers; a reader also waits for the
writers that are queued.
-/

namespace AdaWebServer
namespace Utils

open Http2 (Positive)

/-- `RW_Semaphore`. -/
structure RwSemaphore where
  r : Nat := 0
  w : Nat := 0

namespace RwSemaphore

/-- The barrier of `Read`, with `Write'Count`. -/
def ReadOpen (sem : RwSemaphore) (writeCount : Nat) : Prop := sem.w = 0 ∧ writeCount = 0

/-- The barrier of `Write`. -/
def WriteOpen (writers : Positive) (sem : RwSemaphore) : Prop := sem.r = 0 ∧ sem.w < writers

instance (sem : RwSemaphore) (writeCount : Nat) : Decidable (sem.ReadOpen writeCount) :=
  inferInstanceAs (Decidable (_ ∧ _))

instance (writers : Positive) (sem : RwSemaphore) : Decidable (WriteOpen writers sem) :=
  inferInstanceAs (Decidable (_ ∧ _))

/-- `Read`. -/
def read (sem : RwSemaphore) : RwSemaphore := { sem with r := sem.r + 1 }

/-- `Release_Read`. -/
def releaseRead (sem : RwSemaphore) : RwSemaphore := { sem with r := sem.r - 1 }

/-- `Write`. -/
def write (sem : RwSemaphore) : RwSemaphore := { sem with w := sem.w + 1 }

/-- `Release_Write`. -/
def releaseWrite (sem : RwSemaphore) : RwSemaphore := { sem with w := sem.w - 1 }

/-- The counters are those of the tasks inside, of which no reader is there beside a writer. -/
structure Guards {Task : Type*} (writers : Positive) (sem : RwSemaphore)
    (reading writing : Finset Task) : Prop where
  r_eq : sem.r = reading.card
  w_eq : sem.w = writing.card
  limited : writing.card ≤ writers
  apart : writing = ∅ ∨ reading = ∅

variable {Task : Type*} {writers : Positive} {sem : RwSemaphore} {reading writing : Finset Task}
  {task : Task}

theorem guards_start : Guards writers {} (∅ : Finset Task) ∅ where
  r_eq := rfl
  w_eq := rfl
  limited := Nat.zero_le _
  apart := .inl rfl

theorem Guards.no_reader (guards : sem.Guards writers reading writing) (inside : task ∈ writing)
    (other : Task) : other ∉ reading := by
  rcases guards.apart with nobody | nobody
  · rw [nobody] at inside
    exact absurd inside (Finset.notMem_empty task)
  · rw [nobody]
    exact Finset.notMem_empty other

variable [DecidableEq Task]

theorem Guards.enter_read {writeCount : Nat} (guards : sem.Guards writers reading writing)
    (barrier : sem.ReadOpen writeCount) (outside : task ∉ reading) :
    sem.read.Guards writers (insert task reading) writing where
  r_eq := by rw [Finset.card_insert_of_notMem outside, ← guards.r_eq, read]
  w_eq := guards.w_eq
  limited := guards.limited
  apart := .inl (Finset.card_eq_zero.mp (guards.w_eq ▸ barrier.1))

theorem Guards.leave_read (guards : sem.Guards writers reading writing) (inside : task ∈ reading) :
    sem.releaseRead.Guards writers (reading.erase task) writing where
  r_eq := by rw [Finset.card_erase_of_mem inside, ← guards.r_eq, releaseRead]
  w_eq := guards.w_eq
  limited := guards.limited
  apart := guards.apart.imp_right fun nobody => by rw [nobody, Finset.erase_empty]

theorem Guards.enter_write (guards : sem.Guards writers reading writing)
    (barrier : sem.WriteOpen writers) (outside : task ∉ writing) :
    sem.write.Guards writers reading (insert task writing) where
  r_eq := guards.r_eq
  w_eq := by rw [Finset.card_insert_of_notMem outside, ← guards.w_eq, write]
  limited := by
    rw [Finset.card_insert_of_notMem outside, ← guards.w_eq]
    exact barrier.2
  apart := .inr (Finset.card_eq_zero.mp (guards.r_eq ▸ barrier.1))

theorem Guards.leave_write (guards : sem.Guards writers reading writing)
    (inside : task ∈ writing) :
    sem.releaseWrite.Guards writers reading (writing.erase task) where
  r_eq := guards.r_eq
  w_eq := by rw [Finset.card_erase_of_mem inside, ← guards.w_eq, releaseWrite]
  limited := le_trans (Finset.card_erase_le) guards.limited
  apart := guards.apart.imp_left fun nobody => by rw [nobody, Finset.erase_empty]

end RwSemaphore
end Utils
end AdaWebServer

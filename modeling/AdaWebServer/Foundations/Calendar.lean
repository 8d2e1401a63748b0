import Mathlib.Data.List.Basic
import Mathlib.Data.List.Lex
import Mathlib.Data.Nat.Init
import Mathlib.Order.Basic
import Mathlib.Tactic.Common
import Mathlib.Tactic.Ring

/-!
# The Gregorian calendar

A moment is given by a date that exists and a time of the day.  Moments are numbered by the ticks that
have passed since the first day of year one, and the numbers are in the order of their fields.
-/

namespace AdaWebServer
namespace Calendar

/-! ## Blocks -/

section Blocks

variable (start size : Nat → Nat) (first : Nat)

theorem start_add_size_le (step : ∀ block, first ≤ block → start (block + 1) = start block + size block)
    {left right : Nat} (low : first ≤ left) (before : left < right) :
    start left + size left ≤ start right := by
  induction right, before using Nat.le_induction with
  | base => exact Nat.le_of_eq (step left low).symm
  | succ right after induction =>
      have low' : first ≤ right := by omega
      have := step right low'
      omega

/-- Positions in consecutive blocks are in the order of the blocks, and of the positions in a block. -/
theorem block_le_iff (step : ∀ block, first ≤ block → start (block + 1) = start block + size block)
    {left right : Nat} {leftOffset rightOffset : Nat} (leftLow : first ≤ left) (rightLow : first ≤ right)
    (leftFits : leftOffset < size left) (rightFits : rightOffset < size right) :
    start left + leftOffset ≤ start right + rightOffset ↔
      left < right ∨ left = right ∧ leftOffset ≤ rightOffset := by
  obtain before | same | behind := Nat.lt_trichotomy left right
  · have := start_add_size_le start size first step leftLow before
    exact iff_of_true (by omega) (Or.inl before)
  · subst same
    simp
  · have := start_add_size_le start size first step rightLow behind
    exact iff_of_false (by omega) (by omega)

/-- The same for blocks of equal size. -/
theorem radix_le_iff (left right : Nat) {base leftDigit rightDigit : Nat} (leftFits : leftDigit < base)
    (rightFits : rightDigit < base) :
    left * base + leftDigit ≤ right * base + rightDigit ↔
      left < right ∨ left = right ∧ leftDigit ≤ rightDigit :=
  block_le_iff (· * base) (fun _ => base) 0 (fun block _ => Nat.succ_mul block base) (Nat.zero_le _) (Nat.zero_le _) leftFits rightFits

/-- The block of a position from a block on, and the position in it, for so many blocks. -/
def locate (size : Nat → Nat) : Nat → Nat → Nat → Nat × Nat
  | 0, block, offset => (block, offset)
  | fuel + 1, block, offset =>
      if offset < size block then (block, offset)
      else locate size fuel (block + 1) (offset - size block)

theorem locate_spec (step : ∀ block, first ≤ block → start (block + 1) = start block + size block)
    (positive : ∀ block, 0 < size block) {fuel block offset : Nat} (low : first ≤ block)
    (enough : offset < fuel) :
    first ≤ (locate size fuel block offset).1 ∧
      (locate size fuel block offset).2 < size (locate size fuel block offset).1 ∧
      start (locate size fuel block offset).1 + (locate size fuel block offset).2 =
        start block + offset := by
  induction fuel generalizing block offset with
  | zero => exact absurd enough (Nat.not_lt_zero _)
  | succ fuel induction =>
      rw [locate]
      split_ifs with inside
      · exact ⟨low, inside, rfl⟩
      · have := positive block
        obtain ⟨above, inside', same⟩ :=
          @induction (block + 1) (offset - size block) (by omega) (by omega)
        refine ⟨above, inside', same.trans ?_⟩
        rw [step block low]
        omega

end Blocks

/-! ## Dates -/

/-- A year of 366 days. -/
def Leap (year : Nat) : Prop := 4 ∣ year ∧ (¬100 ∣ year ∨ 400 ∣ year)

instance (year : Nat) : Decidable (Leap year) := inferInstanceAs (Decidable (_ ∧ (_ ∨ _)))

def yearLength (year : Nat) : Nat := if Leap year then 366 else 365

def daysInMonth (year : Nat) : Nat → Nat
  | 2 => if Leap year then 29 else 28
  | 4 | 6 | 9 | 11 => 30
  | _ => 31

/-- Days of the years before a year, from year one. -/
def daysBeforeYear (year : Nat) : Nat :=
  365 * (year - 1) + (year - 1) / 4 - (year - 1) / 100 + (year - 1) / 400

/-- Days of a year before a month. -/
def daysBeforeMonth (year : Nat) : Nat → Nat
  | 0 | 1 => 0
  | month + 2 => daysBeforeMonth year (month + 1) + daysInMonth year (month + 1)

/-- The date exists. -/
def Exists (year month day : Nat) : Prop :=
  1 ≤ month ∧ month ≤ 12 ∧ 1 ≤ day ∧ day ≤ daysInMonth year month

instance (year month day : Nat) : Decidable (Exists year month day) :=
  inferInstanceAs (Decidable (_ ∧ _ ∧ _ ∧ _))

theorem daysBeforeYear_succ (year : Nat) (positive : 1 ≤ year) :
    daysBeforeYear (year + 1) = daysBeforeYear year + yearLength year := by
  obtain ⟨before, rfl⟩ := Nat.exists_eq_add_of_le' positive
  have fits : before / 100 ≤ before / 4 := Nat.div_le_div_left (by decide) (by decide)
  have four_dvd : 100 ∣ before + 1 → 4 ∣ before + 1 := Nat.dvd_trans (by decide)
  have hundred_dvd : 400 ∣ before + 1 → 100 ∣ before + 1 := Nat.dvd_trans (by decide)
  -- each quotient grows where its divisor divides the number of the year
  simp only [daysBeforeYear, Nat.add_sub_cancel, Nat.succ_div, yearLength, Leap]
  generalize before / 4 = quarters, before / 100 = hundreds, before / 400 = cycles at *
  by_cases four : 4 ∣ before + 1
  · by_cases hundred : 100 ∣ before + 1
    · by_cases cycle : 400 ∣ before + 1 <;> simp [four, hundred, cycle] <;> omega
    · have cycle : ¬400 ∣ before + 1 := fun cycle => hundred (hundred_dvd cycle)
      simp [four, hundred, cycle]
      omega
  · have hundred : ¬100 ∣ before + 1 := fun hundred => four (four_dvd hundred)
    have cycle : ¬400 ∣ before + 1 := fun cycle => hundred (hundred_dvd cycle)
    simp [four, hundred, cycle]
    omega

theorem daysBeforeMonth_succ (year month : Nat) (positive : 1 ≤ month) :
    daysBeforeMonth year (month + 1) = daysBeforeMonth year month + daysInMonth year month := by
  obtain ⟨month, rfl⟩ := Nat.exists_eq_add_of_le' positive
  rfl

theorem daysBeforeMonth_thirteen (year : Nat) : daysBeforeMonth year 13 = yearLength year := by
  simp only [daysBeforeMonth, daysInMonth, yearLength]
  split_ifs <;> rfl

theorem daysInMonth_le (year month : Nat) : daysInMonth year month ≤ 31 := by
  unfold daysInMonth
  split
  · split_ifs <;> decide
  all_goals decide

theorem Exists.day_lt {year month day : Nat} (exist : Exists year month day) :
    daysBeforeMonth year month + (day - 1) < yearLength year := by
  obtain ⟨low, high, positive, fits⟩ := exist
  have := start_add_size_le _ _ 1 (daysBeforeMonth_succ year) low (Nat.lt_succ_of_le high)
  rw [daysBeforeMonth_thirteen] at this
  omega

/-! ## Moments -/

theorem nanoseconds_pos : 0 < 10 ^ 9 := by decide

/-- A moment, with the ticks in its second. -/
structure Moment (ticks : Nat) where
  year : Nat
  month : Nat
  day : Nat
  hour : Nat
  minute : Nat
  second : Nat
  tick : Nat
  year_pos : 1 ≤ year
  date_exists : Exists year month day
  hour_lt : hour < 24
  minute_lt : minute < 60
  second_lt : second < 60
  tick_lt : tick < ticks

namespace Moment

variable {ticks : Nat} (moment left right : Moment ticks)

/-- The fields, from the year to the ticks. -/
def fields : List Nat :=
  [moment.year, moment.month, moment.day, moment.hour, moment.minute, moment.second, moment.tick]

/-- Ticks since the start of the minute, of the hour, of the day, of the month, of the year, and of
year one. -/
def inMinute : Nat := moment.second * ticks + moment.tick

def inHour : Nat := moment.minute * (60 * ticks) + moment.inMinute

def inDay : Nat := moment.hour * (60 * (60 * ticks)) + moment.inHour

def inMonth : Nat := (moment.day - 1) * (24 * (60 * (60 * ticks))) + moment.inDay

def inYear : Nat :=
  daysBeforeMonth moment.year moment.month * (24 * (60 * (60 * ticks))) + moment.inMonth

def instant : Nat := daysBeforeYear moment.year * (24 * (60 * (60 * ticks))) + moment.inYear

theorem digit_lt {digit count base offset : Nat} (digit_lt : digit < count) (fits : offset < base) :
    digit * base + offset < count * base := by
  have : (digit + 1) * base ≤ count * base := Nat.mul_le_mul_right base digit_lt
  rw [Nat.succ_mul] at this
  omega

theorem inMinute_lt : moment.inMinute < 60 * ticks := digit_lt moment.second_lt moment.tick_lt

theorem inHour_lt : moment.inHour < 60 * (60 * ticks) := digit_lt moment.minute_lt moment.inMinute_lt

theorem inDay_lt : moment.inDay < 24 * (60 * (60 * ticks)) := digit_lt moment.hour_lt moment.inHour_lt

theorem inMonth_lt :
    moment.inMonth < daysInMonth moment.year moment.month * (24 * (60 * (60 * ticks))) := by
  have := moment.date_exists.2.2
  exact digit_lt (by omega) moment.inDay_lt

theorem inYear_lt : moment.inYear < yearLength moment.year * (24 * (60 * (60 * ticks))) := by
  have := digit_lt moment.date_exists.day_lt moment.inDay_lt
  rw [Nat.add_mul, Nat.add_assoc] at this
  exact this

theorem cons_le_cons_iff (first second : Nat) (front back : List Nat) :
    first :: front ≤ second :: back ↔ first < second ∨ first = second ∧ front ≤ back := by
  rw [le_iff_lt_or_eq, List.cons_lt_cons_iff, List.cons.injEq, le_iff_lt_or_eq, and_or_left, or_assoc]

theorem instant_le_iff : left.instant ≤ right.instant ↔ left.fields ≤ right.fields := by
  have year := block_le_iff
    (fun year => daysBeforeYear year * (24 * (60 * (60 * ticks))))
    (fun year => yearLength year * (24 * (60 * (60 * ticks)))) 1
    (fun year low => by simp only [daysBeforeYear_succ year low, Nat.add_mul])
    left.year_pos right.year_pos left.inYear_lt right.inYear_lt
  have month (same : left.year = right.year) := block_le_iff
    (fun month => daysBeforeMonth right.year month * (24 * (60 * (60 * ticks))))
    (fun month => daysInMonth right.year month * (24 * (60 * (60 * ticks)))) 1
    (fun month low => by simp only [daysBeforeMonth_succ right.year month low, Nat.add_mul])
    left.date_exists.1 right.date_exists.1 (same ▸ left.inMonth_lt) right.inMonth_lt
  have day := radix_le_iff (left.day - 1) (right.day - 1) left.inDay_lt right.inDay_lt
  have hour := radix_le_iff left.hour right.hour left.inHour_lt right.inHour_lt
  have minute := radix_le_iff left.minute right.minute left.inMinute_lt right.inMinute_lt
  have second := radix_le_iff left.second right.second left.tick_lt right.tick_lt
  have first_day := left.date_exists.2.2.1
  have first_day' := right.date_exists.2.2.1
  rw [instant, instant, year]
  simp only [fields, cons_le_cons_iff]
  refine or_congr Iff.rfl (and_congr_right fun same => ?_)
  rw [inYear, inYear, same, month same]
  refine or_congr Iff.rfl (and_congr_right fun _ => ?_)
  rw [inMonth, inMonth, day]
  refine or_congr (by omega) (and_congr (by omega) ?_)
  rw [inDay, inDay, hour]
  refine or_congr Iff.rfl (and_congr_right fun _ => ?_)
  rw [inHour, inHour, minute]
  refine or_congr Iff.rfl (and_congr_right fun _ => ?_)
  rw [inMinute, inMinute, second]
  simp [Nat.le_iff_lt_or_eq]

theorem instant_injective : Function.Injective (instant : Moment ticks → Nat) := by
  intro left right same
  have fields_eq : left.fields = right.fields :=
    le_antisymm ((instant_le_iff left right).mp (Nat.le_of_eq same))
      ((instant_le_iff right left).mp (Nat.le_of_eq same.symm))
  cases left
  cases right
  simp only [fields, List.cons.injEq, and_true] at fields_eq
  obtain ⟨rfl, rfl, rfl, rfl, rfl, rfl, rfl⟩ := fields_eq
  rfl

theorem yearLength_pos (year : Nat) : 0 < yearLength year := by
  rw [yearLength]
  split_ifs <;> decide

theorem daysInMonth_pos (year month : Nat) : 0 < daysInMonth year month := by
  unfold daysInMonth
  split
  · split_ifs <;> decide
  all_goals decide

/-- The date of a day: the days are numbered from year one on, and the result is the year, the month
and the day of the month, counted from zero. -/
def dateOfDay (days : Nat) : Nat × Nat × Nat :=
  let year := locate yearLength (days + 1) 1 days
  let month := locate (daysInMonth year.1) (year.2 + 1) 1 year.2
  (year.1, month.1, month.2)

theorem dateOfDay_spec (days : Nat) :
    1 ≤ (dateOfDay days).1 ∧
      Exists (dateOfDay days).1 (dateOfDay days).2.1 ((dateOfDay days).2.2 + 1) ∧
      daysBeforeYear (dateOfDay days).1 +
        (daysBeforeMonth (dateOfDay days).1 (dateOfDay days).2.1 + (dateOfDay days).2.2) = days := by
  obtain ⟨year_low, in_year, year_eq⟩ := locate_spec daysBeforeYear yearLength 1 daysBeforeYear_succ
    yearLength_pos (Nat.le_refl 1) (Nat.lt_succ_self days)
  rw [dateOfDay]
  generalize locate yearLength (days + 1) 1 days = year at year_low in_year year_eq
  obtain ⟨month_low, in_month, month_eq⟩ := locate_spec (daysBeforeMonth year.1)
    (daysInMonth year.1) 1 (daysBeforeMonth_succ year.1) (daysInMonth_pos year.1) (Nat.le_refl 1)
    (Nat.lt_succ_self year.2)
  dsimp only
  generalize locate (daysInMonth year.1) (year.2 + 1) 1 year.2 = month at month_low in_month month_eq
  have first_month : daysBeforeMonth year.1 1 = 0 := rfl
  have first_year : daysBeforeYear 1 = 0 := rfl
  have month_high : month.1 ≤ 12 := by
    by_contra beyond
    have := start_add_size_le _ _ 1 (daysBeforeMonth_succ year.1) (by decide : 1 ≤ 12)
      (Nat.lt_of_not_le beyond)
    have := daysBeforeMonth_succ year.1 12 (by decide)
    rw [daysBeforeMonth_thirteen] at this
    omega
  exact ⟨year_low, ⟨month_low, month_high, Nat.succ_pos _, in_month⟩, by omega⟩

/-- The moment with a number. -/
def ofInstant (positive : 0 < ticks) (number : Nat) : Moment ticks :=
  let seconds := number / ticks
  let minutes := seconds / 60
  let hours := minutes / 60
  let days := hours / 24
  { year := (dateOfDay days).1
    month := (dateOfDay days).2.1
    day := (dateOfDay days).2.2 + 1
    hour := hours % 24
    minute := minutes % 60
    second := seconds % 60
    tick := number % ticks
    year_pos := (dateOfDay_spec days).1
    date_exists := (dateOfDay_spec days).2.1
    hour_lt := Nat.mod_lt _ (by decide)
    minute_lt := Nat.mod_lt _ (by decide)
    second_lt := Nat.mod_lt _ (by decide)
    tick_lt := Nat.mod_lt _ positive }

/-- The number of a day with the ticks of the day. -/
theorem instant_eq (moment : Moment ticks) :
    moment.instant = (daysBeforeYear moment.year +
      (daysBeforeMonth moment.year moment.month + (moment.day - 1))) * (24 * (60 * (60 * ticks))) +
        moment.inDay := by
  rw [instant, inYear, inMonth, Nat.add_mul, Nat.add_mul]
  omega

theorem instant_ofInstant (positive : 0 < ticks) (number : Nat) :
    (ofInstant positive number).instant = number := by
  have date := (dateOfDay_spec (number / ticks / 60 / 60 / 24)).2.2
  rw [instant_eq]
  simp only [ofInstant, inDay, inHour, inMinute, Nat.add_sub_cancel, date]
  have days := Nat.div_add_mod (number / ticks / 60 / 60) 24
  have hours := Nat.div_add_mod (number / ticks / 60) 60
  have minutes := Nat.div_add_mod (number / ticks) 60
  have seconds := Nat.div_add_mod number ticks
  calc number / ticks / 60 / 60 / 24 * (24 * (60 * (60 * ticks))) +
        (number / ticks / 60 / 60 % 24 * (60 * (60 * ticks)) +
          (number / ticks / 60 % 60 * (60 * ticks) + (number / ticks % 60 * ticks + number % ticks)))
      = (24 * (number / ticks / 60 / 60 / 24) + number / ticks / 60 / 60 % 24) * (60 * (60 * ticks)) +
          (number / ticks / 60 % 60 * (60 * ticks) +
            (number / ticks % 60 * ticks + number % ticks)) := by ring
    _ = (60 * (number / ticks / 60 / 60) + number / ticks / 60 % 60) * (60 * ticks) +
          (number / ticks % 60 * ticks + number % ticks) := by rw [days]; ring
    _ = (60 * (number / ticks / 60) + number / ticks % 60) * ticks + number % ticks := by
        rw [hours]; ring
    _ = number := by rw [minutes, Nat.mul_comm, seconds]

/-- The number of the day, from the first day of year one. -/
def dayNumber : Nat :=
  daysBeforeYear moment.year + (daysBeforeMonth moment.year moment.month + (moment.day - 1))

def date : Nat × Nat × Nat := (moment.year, moment.month, moment.day)

/-- The start of the day. -/
def midnight (positive : 0 < ticks) : Moment ticks :=
  { moment with
    hour := 0
    minute := 0
    second := 0
    tick := 0
    hour_lt := Nat.succ_pos 23
    minute_lt := Nat.succ_pos 59
    second_lt := Nat.succ_pos 59
    tick_lt := positive }

theorem instant_midnight (positive : 0 < ticks) :
    (moment.midnight positive).instant = moment.dayNumber * (24 * (60 * (60 * ticks))) := by
  rw [instant_eq]
  simp only [midnight, inDay, inHour, inMinute, Nat.zero_mul, Nat.add_zero]
  rfl

theorem instant_div (positive : 0 < ticks) :
    moment.instant / (24 * (60 * (60 * ticks))) = moment.dayNumber := by
  have base : 0 < 24 * (60 * (60 * ticks)) := by omega
  rw [instant_eq, Nat.mul_comm, Nat.mul_add_div base, Nat.div_eq_of_lt moment.inDay_lt, Nat.add_zero]
  rfl

theorem date_eq_iff (positive : 0 < ticks) :
    left.date = right.date ↔ left.dayNumber = right.dayNumber := by
  constructor <;> intro same
  · simp only [date, Prod.mk.injEq] at same
    obtain ⟨year_eq, month_eq, day_eq⟩ := same
    rw [dayNumber, dayNumber, year_eq, month_eq, day_eq]
  · have midnights : left.midnight positive = right.midnight positive :=
      instant_injective (by rw [instant_midnight, instant_midnight, same])
    have dates := congrArg date midnights
    exact dates

theorem ofInstant_instant (positive : 0 < ticks) (moment : Moment ticks) :
    ofInstant positive moment.instant = moment :=
  instant_injective (instant_ofInstant positive moment.instant)

end Moment

/-! ## Noon -/

theorem year_in_range : 1 ≤ 2024 := by decide

theorem noon_in_day : 12 < 24 := by decide

theorem full_hour : 0 < 60 := by decide

end Calendar
end AdaWebServer

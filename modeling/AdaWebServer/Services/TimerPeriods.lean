import AdaWebServer.Foundations.Calendar
import AdaWebServer.Http2.Basic

/-!
# Periods of the timer dispatcher

A period has two bounds, each a record of which the constructor sets the components that the kind of
the period has.  A bound is made into a time with components of the current time in place of those
that repeat.
-/

namespace AdaWebServer
namespace Services
namespace Timer

open Calendar (Exists Moment)

/-! ## Numbers of the calendar -/

abbrev YearNumber := {year : Nat // 1901 ≤ year ∧ year ≤ 2399}

abbrev MonthNumber := {month : Nat // 1 ≤ month ∧ month ≤ 12}

abbrev DayNumber := {day : Nat // 1 ≤ day ∧ day ≤ 31}

/-- `Day_Name`, from Monday on. -/
abbrev DayName := Fin 7

abbrev HourNumber := Fin 24

abbrev MinuteNumber := Fin 60

abbrev SecondNumber := Fin 60

/-- `Calendar.Clock`, in nanoseconds, with what `Split` and `Day_Of_Week` give for it. -/
structure Now where
  moment : Moment (10 ^ 9)
  year_low : 1901 ≤ moment.year
  year_high : moment.year ≤ 2399
  dayOfWeek : DayName

namespace Now

variable (now : Now)

def year : YearNumber := ⟨now.moment.year, now.year_low, now.year_high⟩

def month : MonthNumber :=
  ⟨now.moment.month, now.moment.date_exists.1, now.moment.date_exists.2.1⟩

def day : DayNumber :=
  ⟨now.moment.day, now.moment.date_exists.2.2.1,
    now.moment.date_exists.2.2.2.trans (Calendar.daysInMonth_le _ _)⟩

def hour : HourNumber := ⟨now.moment.hour, now.moment.hour_lt⟩

def minute : MinuteNumber := ⟨now.moment.minute, now.moment.minute_lt⟩

end Now

/-! ## Periods -/

inductive Kind where
  | once
  | yearly
  | monthly
  | weekly
  | daily
  | hourly
  | minutely
  deriving DecidableEq

/-- `Date_Time`.  A component has no value unless it has been set. -/
structure DateTime where
  year : Option YearNumber := none
  month : Option MonthNumber := none
  day : Option DayNumber := none
  nDay : Option DayName := none
  hour : Option HourNumber := none
  minute : Option MinuteNumber := none
  second : Option SecondNumber := none

/-- `Period`. -/
structure Period where
  mode : Kind
  fromDate : DateTime
  toDate : DateTime

/-- `Once`. -/
def once (fromYear : YearNumber) (fromMonth : MonthNumber) (fromDay : DayNumber)
    (fromHour : HourNumber) (fromMinute : MinuteNumber) (fromSecond : SecondNumber)
    (toYear : YearNumber) (toMonth : MonthNumber) (toDay : DayNumber) (toHour : HourNumber)
    (toMinute : MinuteNumber) (toSecond : SecondNumber) : Period where
  mode := .once
  fromDate :=
    { year := fromYear, month := fromMonth, day := fromDay, hour := fromHour, minute := fromMinute
      second := fromSecond }
  toDate :=
    { year := toYear, month := toMonth, day := toDay, hour := toHour, minute := toMinute
      second := toSecond }

/-- `Yearly`. -/
def yearly (fromMonth : MonthNumber) (fromDay : DayNumber) (fromHour : HourNumber)
    (fromMinute : MinuteNumber) (fromSecond : SecondNumber) (toMonth : MonthNumber)
    (toDay : DayNumber) (toHour : HourNumber) (toMinute : MinuteNumber) (toSecond : SecondNumber) :
    Period where
  mode := .yearly
  fromDate :=
    { month := fromMonth, day := fromDay, hour := fromHour, minute := fromMinute
      second := fromSecond }
  toDate := { month := toMonth, day := toDay, hour := toHour, minute := toMinute, second := toSecond }

/-- `Monthly`. -/
def monthly (fromDay : DayNumber) (fromHour : HourNumber) (fromMinute : MinuteNumber)
    (fromSecond : SecondNumber) (toDay : DayNumber) (toHour : HourNumber) (toMinute : MinuteNumber)
    (toSecond : SecondNumber) : Period where
  mode := .monthly
  fromDate := { day := fromDay, hour := fromHour, minute := fromMinute, second := fromSecond }
  toDate := { day := toDay, hour := toHour, minute := toMinute, second := toSecond }

/-- `Weekly`. -/
def weekly (fromDay : DayName) (fromHour : HourNumber) (fromMinute : MinuteNumber)
    (fromSecond : SecondNumber) (toDay : DayName) (toHour : HourNumber) (toMinute : MinuteNumber)
    (toSecond : SecondNumber) : Period where
  mode := .weekly
  fromDate := { nDay := fromDay, hour := fromHour, minute := fromMinute, second := fromSecond }
  toDate := { nDay := toDay, hour := toHour, minute := toMinute, second := toSecond }

/-- `Daily`. -/
def daily (fromHour : HourNumber) (fromMinute : MinuteNumber) (fromSecond : SecondNumber)
    (toHour : HourNumber) (toMinute : MinuteNumber) (toSecond : SecondNumber) : Period where
  mode := .daily
  fromDate := { hour := fromHour, minute := fromMinute, second := fromSecond }
  toDate := { hour := toHour, minute := toMinute, second := toSecond }

/-- `Hourly`. -/
def hourly (fromMinute : MinuteNumber) (fromSecond : SecondNumber) (toMinute : MinuteNumber)
    (toSecond : SecondNumber) : Period where
  mode := .hourly
  fromDate := { minute := fromMinute, second := fromSecond }
  toDate := { minute := toMinute, second := toSecond }

/-- `Minutely`. -/
def minutely (fromSecond toSecond : SecondNumber) : Period where
  mode := .minutely
  fromDate := { second := fromSecond }
  toDate := { second := toSecond }

/-! ## Matching -/

/-- What stops a match. -/
inductive Fault where
  /-- A component is read that has no value. -/
  | invalidData
  | constraintError
  | timeError
  deriving DecidableEq

/-- The value of a component. -/
def component {α : Type} : Option α → Except Fault α
  | some value => .ok value
  | none => .error .invalidData

/-- `Calendar.Formatting.Time_Of`, in nanoseconds. -/
def timeOf (year : YearNumber) (month : MonthNumber) (day : DayNumber) (hour : HourNumber)
    (minute : MinuteNumber) (second : SecondNumber) : Except Fault Nat :=
  if date_exists : Exists year month day then
    let moment : Moment (10 ^ 9) :=
      { year, month, day, hour, minute, second, tick := 0, date_exists
        year_pos := Nat.le_trans (by decide) year.property.1
        hour_lt := hour.isLt, minute_lt := minute.isLt, second_lt := second.isLt
        tick_lt := Calendar.nanoseconds_pos }
    .ok moment.instant
  else .error .timeError

/-- The check of an expression for `Day_Number`. -/
def toDayNumber (number : Int) : Except Fault DayNumber :=
  if inside : 1 ≤ number.toNat ∧ number.toNat ≤ 31 then .ok ⟨number.toNat, inside⟩
  else .error .constraintError

/-- Both bounds, and `From <= Now and then Now <= To`. -/
def between (now : Now) (lower upper : Except Fault Nat) : Except Fault Bool := do
  let fromTime ← lower
  let toTime ← upper
  return fromTime ≤ now.moment.instant ∧ now.moment.instant ≤ toTime

/-- `Match_Once`. -/
def matchOnce (now : Now) (period : Period) : Except Fault Bool :=
  let bound (date : DateTime) : Except Fault Nat := do
    timeOf (← component date.year) (← component date.month) (← component date.day)
      (← component date.hour) (← component date.minute) (← component date.second)
  between now (bound period.fromDate) (bound period.toDate)

/-- `Match_Yearly`. -/
def matchYearly (now : Now) (period : Period) : Except Fault Bool :=
  let bound (date : DateTime) : Except Fault Nat := do
    timeOf now.year (← component date.month) (← component date.day) (← component date.hour)
      (← component date.minute) (← component date.second)
  between now (bound period.fromDate) (bound period.toDate)

/-- `Match_Monthly`. -/
def matchMonthly (now : Now) (period : Period) : Except Fault Bool :=
  let bound (date : DateTime) : Except Fault Nat := do
    timeOf now.year now.month (← component date.day) (← component date.hour)
      (← component date.minute) (← component date.second)
  between now (bound period.fromDate) (bound period.toDate)

/-- `Match_Weekly`. -/
def matchWeekly (now : Now) (period : Period) : Except Fault Bool :=
  let lower : Except Fault Nat := do
    let f := period.fromDate
    let shift : Int := now.dayOfWeek.val - (← component f.nDay).val
    timeOf (← component f.year) (← component f.month)
      (← toDayNumber ((← component f.day).val - shift)) (← component f.hour) (← component f.minute)
      (← component f.second)
  let upper : Except Fault Nat := do
    let t := period.toDate
    let shift : Int := (← component t.nDay).val - now.dayOfWeek.val
    timeOf (← component t.year) (← component t.month)
      (← toDayNumber ((← component t.day).val + shift)) (← component t.hour) (← component t.minute)
      (← component t.second)
  between now lower upper

/-- `Match_Daily`. -/
def matchDaily (now : Now) (period : Period) : Except Fault Bool :=
  let bound (date : DateTime) : Except Fault Nat := do
    timeOf now.year now.month now.day (← component date.hour) (← component date.minute)
      (← component date.second)
  between now (bound period.fromDate) (bound period.toDate)

/-- `Match_Hourly`. -/
def matchHourly (now : Now) (period : Period) : Except Fault Bool :=
  let bound (date : DateTime) : Except Fault Nat := do
    timeOf now.year now.month now.day now.hour (← component date.minute) (← component date.second)
  between now (bound period.fromDate) (bound period.toDate)

/-- `Match_Minutely`. -/
def matchMinutely (now : Now) (period : Period) : Except Fault Bool :=
  let bound (date : DateTime) : Except Fault Nat := do
    timeOf now.year now.month now.day now.hour now.minute (← component date.second)
  between now (bound period.fromDate) (bound period.toDate)

/-- The `case` statement of `Dispatch`. -/
def Period.matchNow (now : Now) (period : Period) : Except Fault Bool :=
  match period.mode with
  | .once => matchOnce now period
  | .yearly => matchYearly now period
  | .monthly => matchMonthly now period
  | .weekly => matchWeekly now period
  | .daily => matchDaily now period
  | .hourly => matchHourly now period
  | .minutely => matchMinutely now period

end Timer
end Services
end AdaWebServer

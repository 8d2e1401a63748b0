import AdaWebServer.Foundations.Calendar
import AdaWebServer.Utils.Images
import AdaWebServer.Utils.Numerals

/-!
# Dates and times

A date, a time of the day and an instant are kept as times of the calendar, which are the
nanoseconds of UTC since the first day of year one.  They are written with the components of the
local time, and with the offset of the local time unless they are dates; they are read with an
offset that is zero unless one is given.
-/

namespace AdaWebServer
namespace Soap
namespace Times

open Calendar (Exists Moment)
open Http2 (Octet Text image integerValue text)

/-! ## The calendar -/

/-- Exceptions. -/
inductive Fault where
  | constraintError
  | indexError
  | timeError
  deriving DecidableEq

/-- `Time_Offset`, the minutes by which the local time is ahead of UTC. -/
structure Zone where
  offset : Int
  low : -1680 ≤ offset
  high : offset ≤ 1680

def minute : Int := 60 * 10 ^ 9

/-- The moment on the local clock. -/
def wallClock (zone : Zone) (time : Int) : Moment (10 ^ 9) :=
  Moment.ofInstant Calendar.nanoseconds_pos (time + zone.offset * minute).toNat

/-- The local year of a time is one of the calendar. -/
def Local (zone : Zone) (time : Int) : Prop :=
  0 ≤ time + zone.offset * minute ∧ 1901 ≤ (wallClock zone time).year ∧
    (wallClock zone time).year ≤ 2399

instance (zone : Zone) (time : Int) : Decidable (Local zone time) :=
  inferInstanceAs (Decidable (_ ∧ _ ∧ _))

/-- `Split`. -/
def splitTime (zone : Zone) (time : Int) : Except Fault (Moment (10 ^ 9)) :=
  if Local zone time then .ok (wallClock zone time) else .error .timeError

/-- `Calendar.Formatting.Time_Of`, with the sub-second in nanoseconds. -/
def timeOf (year month day hour minute' second subSecond : Nat) (timeZone : Int) :
    Except Fault Int :=
  if Exists year month day then
    let days := Calendar.daysBeforeYear year + (Calendar.daysBeforeMonth year month + (day - 1))
    .ok ((((days * 24 + hour) * 60 + minute') * 60 + second) * 10 ^ 9 +
      subSecond - timeZone * minute)
  else .error .timeError

/-! ## Images -/

/-- The last decimal digits of a number, with zeros in front. -/
def padded : Nat → Nat → Text
  | 0, _ => []
  | width + 1, number => padded width (number / 10) ++ [UInt8.ofNat (48 + number % 10)]

/-- `I2D`. -/
def i2d (number : Nat) : Text := if number > 9 then image number else 48 :: image number

/-- `Image` of a time zone. -/
def zoneImage (timezone : Int) : Text :=
  let h := timezone.natAbs / 60
  let m := timezone.natAbs % 60
  if timezone = 0 then text "Z"
  else if timezone ≥ 0 then 43 :: (i2d h ++ 58 :: i2d m)
  else 45 :: (i2d h ++ 58 :: i2d m)

/-- The pictures of a date, of the time of the day and of the milliseconds, the last of which is
used where there is a sub-second. -/
def datePicture (moment : Moment (10 ^ 9)) : Text :=
  padded 4 moment.year ++ 45 :: (padded 2 moment.month ++ 45 :: padded 2 moment.day)

def timePicture (moment : Moment (10 ^ 9)) : Text :=
  padded 2 moment.hour ++ 58 :: (padded 2 moment.minute ++ 58 :: padded 2 moment.second)

def milliPicture (moment : Moment (10 ^ 9)) : Text :=
  if moment.tick ≠ 0 then 46 :: (padded 9 moment.tick).take 3 else []

/-- `Image` of an `XSD_Time_Instant`. -/
def imageInstant (zone : Zone) (time : Int) : Except Fault Text := do
  let moment ← splitTime zone time
  return datePicture moment ++ 84 :: (timePicture moment ++
    (milliPicture moment ++ zoneImage zone.offset))

/-- `Image` of an `XSD_Date`. -/
def imageDate (zone : Zone) (time : Int) : Except Fault Text := do
  let moment ← splitTime zone time
  return datePicture moment

/-- `Image` of an `XSD_Time`. -/
def imageTime (zone : Zone) (time : Int) : Except Fault Text := do
  let moment ← splitTime zone time
  return timePicture moment ++ (milliPicture moment ++ zoneImage zone.offset)

/-! ## Readers -/

/-- A slice of a string, whose indexes count from one. -/
def slice (str : Text) (first last : Nat) : Except Fault Text :=
  if last < first then .ok []
  else if 1 ≤ first ∧ last ≤ str.length then .ok ((str.take last).drop (first - 1))
  else .error .constraintError

/-- The attribute `Value` of a subtype of the integers. -/
def valueIn (low high : Int) (literal : Text) : Except Fault Int :=
  match integerValue literal with
  | some value => if low ≤ value ∧ value ≤ high then .ok value else .error .constraintError
  | none => .error .constraintError

/-- The same for the numbers of the calendar. -/
def numberIn (low high : Nat) (literal : Text) : Except Fault Nat :=
  (valueIn low high literal).map Int.toNat

def isDigit (octet : Octet) : Bool := 48 ≤ octet && octet ≤ 57

/-- The number that is written in decimal digits. -/
def decimal (digits : Text) : Nat := digits.foldl Utils.decimalShift 0

/-- The attribute `Value` of a fixed-point type, in nanoseconds, for literals without an
exponent. -/
def fixedValue (literal : Text) : Except Fault Int :=
  let whole := literal.takeWhile isDigit
  match literal.dropWhile isDigit with
  | [] => if whole = [] then .error .constraintError else .ok (decimal whole * 10 ^ 9 : Nat)
  | 46 :: fraction =>
      if fraction.all isDigit ∧ (whole ≠ [] ∨ fraction ≠ []) then
        .ok (decimal whole * 10 ^ 9 +
          decimal (fraction.take 9) * 10 ^ (9 - (fraction.take 9).length) : Nat)
      else .error .constraintError
  | _ => .error .constraintError

/-- `Second_Duration'Value`. -/
def secondDuration (literal : Text) : Except Fault Nat := do
  let value ← fixedValue literal
  if 0 ≤ value ∧ value ≤ 10 ^ 9 then return value.toNat else throw .constraintError

/-- `TZ_First`: where a time zone begins, from an index on, or behind the string. -/
def tzFirst (str : Text) (start : Nat) : Except Fault Nat :=
  if start ≤ str.length then
    .ok (match (str.drop (start - 1)).findIdx? fun octet => octet ∈ text "+-Z" with
      | some offset => start + offset
      | none => str.length + 1)
  else .error .indexError

/-- The check of an assignment to `TZ`. -/
def checkOffset (offset : Int) : Except Fault Int :=
  if -1680 ≤ offset ∧ offset ≤ 1680 then .ok offset else .error .constraintError

/-- The statements of the readers that set `TZ`. -/
def readZone (str : Text) (tzFirst : Nat) : Except Fault Int := do
  if tzFirst + 2 ≤ str.length then
    let hours ← valueIn (-1680) 1680 (← slice str (tzFirst + 1) (tzFirst + 2))
    let tz ← checkOffset (hours * 60)
    let tz ←
      if str.length = tzFirst + 5 then do
        let minutes ← valueIn (-1680) 1680 (← slice str (tzFirst + 4) (tzFirst + 5))
        checkOffset (tz + minutes)
      else pure tz
    let sign ← slice str tzFirst tzFirst
    return if sign = text "-" then -tz else tz
  else return 0

/-- The statement that sets `Sub_Second`, behind the last digit of the second. -/
def readSubSecond (str : Text) (secondLast tzFirst : Nat) : Except Fault Nat := do
  if secondLast + 1 < tzFirst then secondDuration (← slice str (secondLast + 1) (tzFirst - 1))
  else return 0

/-- Where the year or the hour begins: a minus sign in front is skipped. -/
def firstIndex (str : Text) : Nat := if 1 < str.length ∧ str.head? = some 45 then 2 else 1

/-- `Time_Instant`. -/
def readInstant (ti : Text) : Except Fault Int := do
  let first := firstIndex ti
  let tzFirst ← tzFirst ti (first + 18)
  let subSecond ← readSubSecond ti (first + 18) tzFirst
  let tz ← readZone ti tzFirst
  let year ← numberIn 1901 2399 (← slice ti first (first + 3))
  let month ← numberIn 1 12 (← slice ti (first + 5) (first + 6))
  let day ← numberIn 1 31 (← slice ti (first + 8) (first + 9))
  let hour ← numberIn 0 23 (← slice ti (first + 11) (first + 12))
  let minute' ← numberIn 0 59 (← slice ti (first + 14) (first + 15))
  let second ← numberIn 0 59 (← slice ti (first + 17) (first + 18))
  timeOf year month day hour minute' second subSecond tz

/-- `Date`. -/
def readDate (date : Text) : Except Fault Int := do
  let tzFirst ← tzFirst date 10
  let tz ← readZone date tzFirst
  let year ← numberIn 1901 2399 (← slice date 1 4)
  let month ← numberIn 1 12 (← slice date 6 7)
  let day ← numberIn 1 31 (← slice date 9 10)
  timeOf year month day 0 0 0 0 tz

/-- `Time`. -/
def readTime (time : Text) : Except Fault Int := do
  let first := firstIndex time
  let tzFirst ← tzFirst time (first + 7)
  let subSecond ← readSubSecond time (first + 7) tzFirst
  let tz ← readZone time tzFirst
  let hour ← numberIn 0 23 (← slice time first (first + 1))
  let minute' ← numberIn 0 59 (← slice time (first + 3) (first + 4))
  let second ← numberIn 0 59 (← slice time (first + 6) (first + 7))
  timeOf 1901 1 1 hour minute' second subSecond tz

end Times
end Soap
end AdaWebServer

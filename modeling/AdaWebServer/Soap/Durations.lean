import AdaWebServer.Soap.Times
import Mathlib.Data.List.DropRight

/-!
# Durations

A duration is written in days, hours, minutes and seconds.  It is read as the difference of the
clock and of the clock with the duration added, which has to be a time of the calendar.
-/

namespace AdaWebServer
namespace Soap
namespace Times

open Calendar (Exists Moment)
open Http2 (Octet Text image text)

/-- `Standard.Duration`, in nanoseconds. -/
structure Span where
  value : Int
  low : -2 ^ 63 ≤ value
  high : value < 2 ^ 63
  deriving DecidableEq

/-! ## The image -/

/-- `P` of a number with its letter. -/
def part (value : Nat) (key : Octet) : Text := if 0 < value then image value ++ [key] else []

/-- The image of a duration that is not negative, and what `P` leaves of it: zeros at its end are
skipped, then a point. -/
def durationImage (value : Nat) : Text :=
  image (value / 10 ^ 9) ++ 46 :: padded 9 (value % 10 ^ 9)

def trimmed (img : Text) : Text :=
  let shorter := img.rdropWhile (· = 48)
  if shorter.getLast? = some 46 then shorter.dropLast else shorter

/-- `P` of a duration. -/
def durationPart (value : Nat) (key : Octet) : Text :=
  if value = 0 then [] else trimmed (durationImage value) ++ [key]

/-- `Image` of an `XSD_Duration`. -/
def imageDuration (span : Span) : Except Fault Text :=
  if span.value = 0 then .ok (text "P0D")
  -- no duration is the absolute value of the least one
  else if span.value = -2 ^ 63 then .error .constraintError
  else
    let total := span.value.natAbs
    let d := total / 10 ^ 9
    -- the divisions are made while something is left to divide
    let s := d % 60
    let d := d / 60
    let i := d % 60
    let d := d / 60
    let h := d % 24
    let d := d / 24
    let ss := s * 10 ^ 9 + total % 10 ^ 9
    .ok ((if span.value < 0 then text "-" else []) ++ 80 :: (part d 68 ++
      ((if 0 < h + i ∨ 0 < ss then text "T" else []) ++
        (part h 72 ++ (part i 77 ++ durationPart ss 83)))))

/-! ## The reader -/

/-- The host: its time zone, and a clock with a time of the calendar. -/
def earliest : Int := ((Calendar.daysBeforeYear 1901 * (24 * (60 * (60 * 10 ^ 9))) : Nat) : Int)

def latest : Int := ((Calendar.daysBeforeYear 2400 * (24 * (60 * (60 * 10 ^ 9))) : Nat) : Int) - 1

structure Host where
  zone : Zone
  clock : Int
  early : earliest ≤ clock
  late : clock ≤ latest

/-- The variables of the reader. -/
structure Parsed where
  year : Nat
  month : Nat
  nDay : Nat
  seconds : Nat
  timeMode : Bool

def isNumeric (octet : Octet) : Bool := isDigit octet || octet = 46

/-- `Duration'Value` of digits and points. -/
def durationValue (literal : Text) : Except Fault Nat := do
  let value ← fixedValue literal
  if value < 2 ^ 63 then return value.toNat else throw .constraintError

/-- The conversion of a duration to an integer of a range from zero on: it rounds. -/
def toWhole (last value : Nat) : Except Fault Nat :=
  let whole := (value + 5 * 10 ^ 8) / 10 ^ 9
  if whole ≤ last then .ok whole else .error .constraintError

def checkYear (year : Nat) : Except Fault Nat :=
  if 1901 ≤ year ∧ year ≤ 2399 then .ok year else .error .constraintError

/-- The loop over the months of more than a year. -/
def carryMonths (year month : Nat) : Except Fault (Nat × Nat) :=
  if 12 < month then do
    let year ← checkYear (year + 1)
    carryMonths year (month - 12)
  else .ok (year, month)
termination_by month

def addSeconds (parsed : Parsed) (amount : Nat) : Except Fault Parsed :=
  if amount < 2 ^ 63 ∧ parsed.seconds + amount < 2 ^ 63 then
    .ok { parsed with seconds := parsed.seconds + amount }
  else .error .constraintError

/-- The case over the letter of a part. -/
def addPart (parsed : Parsed) (value : Nat) (key : Octet) : Except Fault Parsed :=
  if key = 89 then do
    let year ← checkYear (parsed.year + (← toWhole (2 ^ 31 - 1) value))
    return { parsed with year := year }
  else if key = 77 then
    if parsed.timeMode then addSeconds parsed (value * 60)
    else do
      let month := parsed.month + (← toWhole (2 ^ 31 - 1) value)
      if month < 2 ^ 31 then
        let (year, month) ← carryMonths parsed.year month
        return { parsed with year := year, month := month }
      else throw .constraintError
  else if key = 68 then do
    return { parsed with nDay := ← toWhole (366 * (1 + 2399 - 1901)) value }
  else if key = 72 then addSeconds parsed (value * 3600)
  else if key = 83 then addSeconds parsed value
  else .ok parsed

theorem length_behind_key {rest behind : Text} {key : Octet}
    (found : rest.dropWhile isNumeric = key :: behind) : behind.length < rest.length := by
  have suffix := (List.dropWhile_suffix isNumeric : rest.dropWhile isNumeric <:+ rest).length_le
  rw [found, List.length_cons] at suffix
  exact suffix

/-- The `T` in front of a part. -/
def skipMark (parsed : Parsed) (rest : Text) : Parsed × Text :=
  if rest.head? = some 84 then ({ parsed with timeMode := true }, rest.tail) else (parsed, rest)

theorem length_skipMark (parsed : Parsed) (rest : Text) :
    (skipMark parsed rest).2.length ≤ rest.length := by
  rw [skipMark]
  split_ifs
  · rw [List.length_tail]
    exact Nat.sub_le _ _
  · exact Nat.le_refl _

/-- The loop over the parts, from an index before the last one on. -/
def readParts (parsed : Parsed) (rest : Text) : Except Fault Parsed :=
  if 2 ≤ rest.length then
    match _ : (skipMark parsed rest).2.dropWhile isNumeric with
    | [] => .ok (skipMark parsed rest).1
    | key :: behind => do
        let value ← durationValue ((skipMark parsed rest).2.takeWhile isNumeric)
        let parsed ← addPart (skipMark parsed rest).1 value key
        readParts parsed behind
  else .ok parsed
termination_by rest.length
decreasing_by exact (length_behind_key (by assumption)).trans_le (length_skipMark _ rest)

/-- `Check_Within_Time_Bounds`. -/
def checkBounds (time : Int) : Except Fault Int :=
  if earliest ≤ time ∧ time ≤ latest then .ok time else .error .timeError

/-- `Calendar.Time_Of` for a date and the nanoseconds of a day. -/
def timeOfDay (zone : Zone) (year month day seconds : Nat) : Except Fault Int :=
  if Exists year month day then
    let days := Calendar.daysBeforeYear year + (Calendar.daysBeforeMonth year month + (day - 1))
    .ok (((days * (24 * (60 * (60 * 10 ^ 9))) + seconds : Nat) : Int) - zone.offset * minute)
  else .error .timeError

/-- A duration that is computed. -/
def toSpan (fault : Fault) (value : Int) : Except Fault Span :=
  if inside : -2 ^ 63 ≤ value ∧ value < 2 ^ 63 then .ok ⟨value, inside.1, inside.2⟩
  else .error fault

/-- `Duration`. -/
def readDuration (host : Host) (d : Text) : Except Fault Span := do
  if d = [] then throw .constraintError
  let negative : Bool := d.head? = some 45
  let base ← splitTime host.zone host.clock
  let parsed ← readParts ⟨base.year, base.month, 0, 0, false⟩ (d.drop (if negative then 2 else 1))
  let next ← timeOfDay host.zone parsed.year parsed.month base.day base.inDay
  let next ← checkBounds (next + parsed.nDay * (24 * (60 * minute)))
  let next ← checkBounds (next + parsed.seconds)
  let result ← toSpan .timeError (next - host.clock)
  if negative then toSpan .constraintError (-result.value) else return result

end Times
end Soap
end AdaWebServer

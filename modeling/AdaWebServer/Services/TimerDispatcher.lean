import AdaWebServer.Messages.Response
import AdaWebServer.Services.TimerPeriods

/-!
# The timer dispatcher

The dispatcher answers with the action of the first item of its table whose period matches the
current time, else with the default action.  This is the action that the periods ask for if no period
is reached that cannot be compared with the time, that passes over the end of its cycle, or whose
action gives an empty answer.
-/

namespace AdaWebServer
namespace Services
namespace Timer

open Calendar (Exists Moment)
open Http2 (Text text)
open Response (acknowledge)

variable {Request : Type}

/-! ## Recurrences -/

/-- A period as one of the constructors makes it. -/
inductive Recurrence where
  | once (fromYear : YearNumber) (fromMonth : MonthNumber) (fromDay : DayNumber)
      (fromHour : HourNumber) (fromMinute : MinuteNumber) (fromSecond : SecondNumber)
      (toYear : YearNumber) (toMonth : MonthNumber) (toDay : DayNumber) (toHour : HourNumber)
      (toMinute : MinuteNumber) (toSecond : SecondNumber)
  | yearly (fromMonth : MonthNumber) (fromDay : DayNumber) (fromHour : HourNumber)
      (fromMinute : MinuteNumber) (fromSecond : SecondNumber) (toMonth : MonthNumber)
      (toDay : DayNumber) (toHour : HourNumber) (toMinute : MinuteNumber) (toSecond : SecondNumber)
  | monthly (fromDay : DayNumber) (fromHour : HourNumber) (fromMinute : MinuteNumber)
      (fromSecond : SecondNumber) (toDay : DayNumber) (toHour : HourNumber) (toMinute : MinuteNumber)
      (toSecond : SecondNumber)
  | weekly (fromDay : DayName) (fromHour : HourNumber) (fromMinute : MinuteNumber)
      (fromSecond : SecondNumber) (toDay : DayName) (toHour : HourNumber) (toMinute : MinuteNumber)
      (toSecond : SecondNumber)
  | daily (fromHour : HourNumber) (fromMinute : MinuteNumber) (fromSecond : SecondNumber)
      (toHour : HourNumber) (toMinute : MinuteNumber) (toSecond : SecondNumber)
  | hourly (fromMinute : MinuteNumber) (fromSecond : SecondNumber) (toMinute : MinuteNumber)
      (toSecond : SecondNumber)
  | minutely (fromSecond toSecond : SecondNumber)

namespace Recurrence

/-- What the constructor returns. -/
def period : Recurrence → Period
  | once fy fm fd fh fn fs ty tm td th tn ts => Timer.once fy fm fd fh fn fs ty tm td th tn ts
  | yearly fm fd fh fn fs tm td th tn ts => Timer.yearly fm fd fh fn fs tm td th tn ts
  | monthly fd fh fn fs td th tn ts => Timer.monthly fd fh fn fs td th tn ts
  | weekly fd fh fn fs td th tn ts => Timer.weekly fd fh fn fs td th tn ts
  | daily fh fn fs th tn ts => Timer.daily fh fn fs th tn ts
  | hourly fn fs tn ts => Timer.hourly fn fs tn ts
  | minutely fs ts => Timer.minutely fs ts

/-- The first instant of the period in its cycle. -/
def lower : Recurrence → List Nat
  | once fy fm fd fh fn fs _ _ _ _ _ _ => [fy, fm, fd, fh, fn, fs, 0]
  | yearly fm fd fh fn fs _ _ _ _ _ => [fm, fd, fh, fn, fs, 0]
  | monthly fd fh fn fs _ _ _ _ => [fd, fh, fn, fs, 0]
  | weekly fd fh fn fs _ _ _ _ => [fd, fh, fn, fs, 0]
  | daily fh fn fs _ _ _ => [fh, fn, fs, 0]
  | hourly fn fs _ _ => [fn, fs, 0]
  | minutely fs _ => [fs, 0]

/-- The last one. -/
def upper : Recurrence → List Nat
  | once _ _ _ _ _ _ ty tm td th tn ts => [ty, tm, td, th, tn, ts, 0]
  | yearly _ _ _ _ _ tm td th tn ts => [tm, td, th, tn, ts, 0]
  | monthly _ _ _ _ td th tn ts => [td, th, tn, ts, 0]
  | weekly _ _ _ _ td th tn ts => [td, th, tn, ts, 0]
  | daily _ _ _ th tn ts => [th, tn, ts, 0]
  | hourly _ _ tn ts => [tn, ts, 0]
  | minutely _ ts => [ts, 0]

/-- Where the current time is in the cycle. -/
def position (now : Now) : Recurrence → List Nat
  | once _ _ _ _ _ _ _ _ _ _ _ _ => now.moment.fields
  | yearly _ _ _ _ _ _ _ _ _ _ => now.moment.fields.drop 1
  | monthly _ _ _ _ _ _ _ _ => now.moment.fields.drop 2
  | weekly _ _ _ _ _ _ _ _ => now.dayOfWeek.val :: now.moment.fields.drop 3
  | daily _ _ _ _ _ _ => now.moment.fields.drop 3
  | hourly _ _ _ _ => now.moment.fields.drop 4
  | minutely _ _ => now.moment.fields.drop 5

/-- The period comes back. -/
def recurs : Recurrence → Bool
  | once _ _ _ _ _ _ _ _ _ _ _ _ => false
  | _ => true

/-- The current time is between the bounds. -/
def Within (now : Now) (recurrence : Recurrence) : Prop :=
  recurrence.lower ≤ recurrence.position now ∧ recurrence.position now ≤ recurrence.upper

/-- The period passes over the end of its cycle, with the current time before or behind it. -/
def Around (now : Now) (recurrence : Recurrence) : Prop :=
  recurrence.recurs ∧ recurrence.upper < recurrence.lower ∧
    (recurrence.lower ≤ recurrence.position now ∨ recurrence.position now ≤ recurrence.upper)

/-- The period contains the current time. -/
def Contains (now : Now) (recurrence : Recurrence) : Prop :=
  recurrence.Within now ∨ recurrence.Around now

/-- The bounds can be made into times: the period is not weekly, and the days exist in the current
month or year. -/
def Comparable (now : Now) : Recurrence → Prop
  | once fy fm fd _ _ _ ty tm td _ _ _ => Exists fy fm fd ∧ Exists ty tm td
  | yearly fm fd _ _ _ tm td _ _ _ => Exists now.year fm fd ∧ Exists now.year tm td
  | monthly fd _ _ _ td _ _ _ =>
      Exists now.year now.month fd ∧ Exists now.year now.month td
  | weekly _ _ _ _ _ _ _ _ => False
  | daily _ _ _ _ _ _ | hourly _ _ _ _ | minutely _ _ => True

section Decidability

variable (now : Now) (recurrence : Recurrence)

instance : Decidable (recurrence.Within now) := inferInstanceAs (Decidable (_ ∧ _))

instance : Decidable (recurrence.Around now) := inferInstanceAs (Decidable (_ ∧ _ ∧ (_ ∨ _)))

instance : Decidable (recurrence.Contains now) := inferInstanceAs (Decidable (_ ∨ _))

end Decidability

end Recurrence

/-! ## Dispatching -/

/-- `Node`. -/
structure Node (Request : Type) where
  name : Text
  recurrence : Recurrence
  action : Request → Response.Data

/-- The component `Period`. -/
def Node.period (item : Node Request) : Period := item.recurrence.period

/-- `Handler`. -/
structure Handler (Request : Type) where
  action : Option (Request → Response.Data) := none
  table : List (Node Request) := []

/-- `Register`. -/
def Handler.register (dispatcher : Handler Request) (name : Text) (recurrence : Recurrence)
    (action : Request → Response.Data) : Handler Request :=
  { dispatcher with table := dispatcher.table ++ [{ name, recurrence, action }] }

/-- Who has answered: the item at a position of the table, the default action, or none of them. -/
inductive Responder where
  | item (position : Nat)
  | default
  | nobody
  deriving DecidableEq

/-- An answer, with who has given it. -/
structure Answer where
  responder : Responder
  data : Response.Data
  deriving DecidableEq

/-- What follows the loop of `Dispatch`, for a version of the server. -/
def fallback (version : Text) (dispatcher : Handler Request) (request : Request) : Answer :=
  match dispatcher.action with
  | some action => ⟨.default, action request⟩
  | none =>
      ⟨.nobody, acknowledge 404
        (text "<p>AWS " ++ version ++ text "<p>No rule found for the time dispatcher and no " ++
          text "default dispatcher defined.")⟩

/-- The loop of `Dispatch`, from a position of the table on. -/
def search (now : Now) (request : Request) : Nat → List (Node Request) →
    Except Fault (Option Answer)
  | _, [] => .ok none
  | position, item :: later => do
      if ← item.period.matchNow now then
        return some ⟨.item position, item.action request⟩
      search now request (position + 1) later

/-- `Dispatch`. -/
def dispatch (version : Text) (now : Now) (dispatcher : Handler Request) (request : Request) :
    Except Fault Answer := do
  match ← search now request 0 dispatcher.table with
  | some answer => return answer
  | none => return fallback version dispatcher request

/-! ## The answer that the periods ask for -/

/-- The first item whose period contains the time and whose action does not give an empty answer. -/
def responsible (now : Now) (request : Request) : Nat → List (Node Request) → Option Answer
  | _, [] => none
  | position, item :: later =>
      if item.recurrence.Contains now ∧ ¬(item.action request).IsEmpty then
        some ⟨.item position, item.action request⟩
      else responsible now request (position + 1) later

/-- The answer of this item, or else that of the default action. -/
def expected (version : Text) (now : Now) (dispatcher : Handler Request) (request : Request) :
    Answer :=
  (responsible now request 0 dispatcher.table).getD (fallback version dispatcher request)

/-- Every period that is reached can be compared with the time; the one that the time is within has an
action that does not give an empty answer, and those before that contain the time around the end of
their cycle have one that does. -/
def Undisturbed (now : Now) (request : Request) : List (Node Request) → Prop
  | [] => True
  | item :: later =>
      item.recurrence.Comparable now ∧
        if item.recurrence.Within now then ¬(item.action request).IsEmpty
        else
          (item.recurrence.Around now → (item.action request).IsEmpty) ∧
            Undisturbed now request later

/-! ## Matching of comparable periods -/

section Matching

variable {now : Now} {fromYear toYear : YearNumber} {fromMonth toMonth : MonthNumber}
  {fromDay toDay : DayNumber} {fromHour toHour : HourNumber} {fromMinute toMinute : MinuteNumber}
  {fromSecond toSecond : SecondNumber}

theorem between_of_exist (low : Exists fromYear fromMonth fromDay)
    (high : Exists toYear toMonth toDay) :
    between now (timeOf fromYear fromMonth fromDay fromHour fromMinute fromSecond)
        (timeOf toYear toMonth toDay toHour toMinute toSecond) =
      .ok (decide
        ([fromYear.val, fromMonth.val, fromDay.val, fromHour.val, fromMinute.val, fromSecond.val, 0] ≤
            now.moment.fields ∧
          now.moment.fields ≤
            [toYear.val, toMonth.val, toDay.val, toHour.val, toMinute.val, toSecond.val, 0])) := by
  rw [timeOf, dif_pos low, timeOf, dif_pos high]
  change Except.ok (decide (_ ∧ _)) = _
  simp only [Moment.instant_le_iff]
  rfl

theorem between_of_missing
    (missing : ¬(Exists fromYear fromMonth fromDay ∧ Exists toYear toMonth toDay)) :
    ∃ fault, between now (timeOf fromYear fromMonth fromDay fromHour fromMinute fromSecond)
      (timeOf toYear toMonth toDay toHour toMinute toSecond) = .error fault := by
  by_cases low : Exists fromYear fromMonth fromDay
  · have high : ¬Exists toYear toMonth toDay := fun high => missing ⟨low, high⟩
    rw [timeOf, dif_pos low, timeOf, dif_neg high]
    exact ⟨_, rfl⟩
  · rw [timeOf, dif_neg low]
    exact ⟨_, rfl⟩

theorem today_exists : Exists now.year now.month now.day := now.moment.date_exists

theorem append_le_append (front left right : List Nat) :
    front ++ left ≤ front ++ right ↔ left ≤ right := by
  induction front with
  | nil => exact Iff.rfl
  | cons first front induction => simpa [Calendar.Moment.cons_le_cons_iff] using induction

/-- Components that the bounds have in common with the current time do not count. -/
theorem within_append (front lower position upper : List Nat) :
    (Except.ok (decide (front ++ lower ≤ front ++ position ∧ front ++ position ≤ front ++ upper)) :
        Except Fault Bool) =
      .ok (decide (lower ≤ position ∧ position ≤ upper)) := by
  simp only [append_le_append]

end Matching

/-- A period that can be compared with the time matches it if the time is between its bounds. -/
theorem matchNow_of_comparable {now : Now} {recurrence : Recurrence}
    (comparable : recurrence.Comparable now) :
    recurrence.period.matchNow now = .ok (decide (recurrence.Within now)) := by
  cases recurrence with
  | once fy fm fd fh fn fs ty tm td th tn ts => exact between_of_exist comparable.1 comparable.2
  | yearly fm fd fh fn fs tm td th tn ts =>
      exact (between_of_exist comparable.1 comparable.2).trans
        (within_append [now.moment.year] _ _ _)
  | monthly fd fh fn fs td th tn ts =>
      exact (between_of_exist comparable.1 comparable.2).trans
        (within_append [now.moment.year, now.moment.month] _ _ _)
  | weekly fd fh fn fs td th tn ts => exact comparable.elim
  | daily fh fn fs th tn ts =>
      exact (between_of_exist today_exists today_exists).trans
        (within_append [now.moment.year, now.moment.month, now.moment.day] _ _ _)
  | hourly fn fs tn ts =>
      exact (between_of_exist today_exists today_exists).trans
        (within_append [now.moment.year, now.moment.month, now.moment.day, now.moment.hour] _ _ _)
  | minutely fs ts =>
      exact (between_of_exist today_exists today_exists).trans
        (within_append
          [now.moment.year, now.moment.month, now.moment.day, now.moment.hour, now.moment.minute]
          _ _ _)

theorem matchNow_of_not_comparable {now : Now} {recurrence : Recurrence}
    (incomparable : ¬recurrence.Comparable now) :
    ∃ fault, recurrence.period.matchNow now = .error fault := by
  cases recurrence with
  | once fy fm fd fh fn fs ty tm td th tn ts => exact between_of_missing incomparable
  | yearly fm fd fh fn fs tm td th tn ts => exact between_of_missing incomparable
  | monthly fd fh fn fs td th tn ts => exact between_of_missing incomparable
  | weekly fd fh fn fs td th tn ts => exact ⟨.invalidData, rfl⟩
  | daily fh fn fs th tn ts => exact (incomparable trivial).elim
  | hourly fn fs tn ts => exact (incomparable trivial).elim
  | minutely fs ts => exact (incomparable trivial).elim

/-! ## The loop -/

section Search

variable {now : Now} {request : Request} {position : Nat} {item : Node Request}
  {later : List (Node Request)}

theorem search_stopped (request : Request) (position : Nat) (later : List (Node Request))
    (incomparable : ¬item.recurrence.Comparable now) :
    ∃ fault, search now request position (item :: later) = .error fault := by
  obtain ⟨fault, stopped⟩ := matchNow_of_not_comparable incomparable
  refine ⟨fault, ?_⟩
  rw [search, Node.period, stopped]
  rfl

theorem search_found (comparable : item.recurrence.Comparable now)
    (within : item.recurrence.Within now) :
    search now request position (item :: later) =
      .ok (some ⟨.item position, item.action request⟩) := by
  rw [search, Node.period, matchNow_of_comparable comparable, decide_eq_true within]
  rfl

theorem search_skipped (comparable : item.recurrence.Comparable now)
    (outside : ¬item.recurrence.Within now) :
    search now request position (item :: later) = search now request (position + 1) later := by
  rw [search, Node.period, matchNow_of_comparable comparable, decide_eq_false outside]
  rfl

/-- The items behind a position of the table are not at this position. -/
theorem responsible_responder {answer : Answer} {table : List (Node Request)}
    (found : responsible now request position table = some answer) :
    ∃ later, position ≤ later ∧ answer.responder = .item later := by
  induction table generalizing position with
  | nil => cases found
  | cons item table induction =>
      rw [responsible] at found
      split_ifs at found with accepted
      · cases found
        exact ⟨position, Nat.le_refl _, rfl⟩
      · obtain ⟨later, behind, same⟩ := induction found
        exact ⟨later, by omega, same⟩

theorem fallback_responder (version : Text) (dispatcher : Handler Request) (position : Nat) :
    (fallback version dispatcher request).responder ≠ .item position := by
  rw [fallback]
  split <;> rintro ⟨⟩

theorem search_responder {answer : Answer} {table : List (Node Request)}
    (found : search now request position table = .ok (some answer)) :
    ∃ later, position ≤ later ∧ answer.responder = .item later := by
  induction table generalizing position with
  | nil => cases found
  | cons item table induction =>
      by_cases comparable : item.recurrence.Comparable now
      swap
      · obtain ⟨fault, stopped⟩ := search_stopped request position table comparable
        rw [stopped] at found
        cases found
      by_cases within : item.recurrence.Within now
      · rw [search_found comparable within] at found
        cases found
        exact ⟨position, Nat.le_refl _, rfl⟩
      · rw [search_skipped comparable within] at found
        obtain ⟨later, behind, same⟩ := induction found
        exact ⟨later, by omega, same⟩

/-- An answer from behind a position, or the default one, is not that of the item at it. -/
theorem responder_ne (version : Text) (dispatcher : Handler Request) (found : Option Answer)
    (behind : ∀ answer, found = some answer →
      ∃ later, position + 1 ≤ later ∧ answer.responder = .item later) (data : Response.Data) :
    found.getD (fallback version dispatcher request) ≠ ⟨.item position, data⟩ := by
  cases found with
  | none =>
      intro same
      exact fallback_responder version dispatcher position (congrArg Answer.responder same)
  | some answer =>
      obtain ⟨later, after, responder⟩ := behind answer rfl
      intro same
      rw [Option.getD_some] at same
      rw [same] at responder
      cases responder
      omega

end Search

/-- What `Dispatch` returns for the items from a position on. -/
def dispatchFrom (version : Text) (now : Now) (dispatcher : Handler Request) (request : Request)
    (position : Nat) (table : List (Node Request)) : Except Fault Answer :=
  (search now request position table).map
    fun found => found.getD (fallback version dispatcher request)

theorem dispatchFrom_correct_iff (version : Text) (now : Now) (dispatcher : Handler Request)
    (request : Request) (position : Nat) (table : List (Node Request)) :
    dispatchFrom version now dispatcher request position table =
        .ok ((responsible now request position table).getD (fallback version dispatcher request)) ↔
      Undisturbed now request table := by
  induction table generalizing position with
  | nil => exact iff_of_true rfl trivial
  | cons item later induction =>
      rw [Undisturbed]
      by_cases comparable : item.recurrence.Comparable now
      swap
      · obtain ⟨fault, stopped⟩ := search_stopped request position later comparable
        rw [dispatchFrom, stopped]
        refine iff_of_false ?_ fun undisturbed => comparable undisturbed.1
        rintro ⟨⟩
      by_cases within : item.recurrence.Within now
      · rw [dispatchFrom, search_found comparable within, if_pos within, responsible]
        by_cases isEmpty : (item.action request).IsEmpty
        · rw [if_neg fun accepted => accepted.2 isEmpty]
          refine iff_of_false ?_ fun undisturbed => undisturbed.2 isEmpty
          intro same
          exact responder_ne version dispatcher _ (fun answer => responsible_responder) _
            (Except.ok.inj same).symm
        · rw [if_pos ⟨Or.inl within, isEmpty⟩]
          exact iff_of_true rfl ⟨comparable, isEmpty⟩
      · rw [dispatchFrom, search_skipped comparable within, if_neg within, responsible]
        have later_correct := induction (position + 1)
        rw [dispatchFrom] at later_correct
        by_cases missed : item.recurrence.Around now ∧ ¬(item.action request).IsEmpty
        · obtain ⟨around, answered⟩ := missed
          rw [if_pos ⟨Or.inr around, answered⟩]
          refine iff_of_false ?_ fun undisturbed => answered (undisturbed.2.1 around)
          cases found : search now request (position + 1) later with
          | error fault => rintro ⟨⟩
          | ok answer =>
              intro same
              refine responder_ne version dispatcher answer ?_ _ (Except.ok.inj same)
              rintro answer rfl
              exact search_responder found
        · have passed : ¬(item.recurrence.Contains now ∧ ¬(item.action request).IsEmpty) := by
            rintro ⟨inside | around, answered⟩
            · exact within inside
            · exact missed ⟨around, answered⟩
          rw [if_neg passed, later_correct]
          have empty_around : item.recurrence.Around now → (item.action request).IsEmpty :=
            fun around => by_contra fun answered => missed ⟨around, answered⟩
          exact ⟨fun undisturbed => ⟨comparable, empty_around, undisturbed⟩,
            fun undisturbed => undisturbed.2.2⟩

theorem dispatch_eq (version : Text) (now : Now) (dispatcher : Handler Request) (request : Request) :
    dispatch version now dispatcher request =
      dispatchFrom version now dispatcher request 0 dispatcher.table := by
  rw [dispatch, dispatchFrom]
  cases search now request 0 dispatcher.table with
  | error fault => rfl
  | ok answer => cases answer <;> rfl

/-- The dispatcher answers as the periods ask for exactly when no period disturbs it. -/
theorem dispatch_correct_iff (version : Text) (now : Now) (dispatcher : Handler Request)
    (request : Request) :
    dispatch version now dispatcher request = .ok (expected version now dispatcher request) ↔
      Undisturbed now request dispatcher.table := by
  rw [dispatch_eq, expected]
  exact dispatchFrom_correct_iff version now dispatcher request 0 dispatcher.table

/-- Noon on the thirtieth of April 2024. -/
def noonInApril : Now where
  moment :=
    { year := 2024, month := 4, day := 30, hour := 12, minute := 0, second := 0, tick := 0
      year_pos := Calendar.year_in_range, date_exists := by decide, hour_lt := Calendar.noon_in_day
      minute_lt := Calendar.full_hour, second_lt := Calendar.full_hour
      tick_lt := Calendar.nanoseconds_pos }
  year_low := by decide
  year_high := by decide
  dayOfWeek := 1

/-- A period from the first to the last day of the longer months. -/
def wholeMonth : Handler Unit :=
  ({} : Handler Unit).register (text "month")
    (.monthly ⟨1, by decide⟩ 0 0 0 ⟨31, by decide⟩ 23 59 59)
    fun _ => acknowledge 200 (text "open")

theorem wholeMonth_raises :
    dispatch [] noonInApril wholeMonth () = .error .timeError ∧
      expected [] noonInApril wholeMonth () = ⟨.item 0, acknowledge 200 (text "open")⟩ :=
  ⟨rfl, by decide +kernel⟩

end Timer
end Services
end AdaWebServer

import AdaWebServer.Soap.Times

/-!
# Reading what has been written of dates and times

The components of an image stand at the places where the readers look for them.  An instant and a
time of the day are read back with their milliseconds.  A date is written in local time and read in
UTC.
-/

namespace AdaWebServer
namespace Soap
namespace Times

open Calendar (Exists Moment)
open Http2 (Octet Text image integerValue text)

/-! ## Decimal digits -/

@[simp]
theorem length_padded (width number : Nat) : (padded width number).length = width := by
  induction width generalizing number with
  | zero => rfl
  | succ width induction => rw [padded, List.length_append, induction, List.length_singleton]

theorem digit_range (number : Nat) :
    48 ≤ UInt8.ofNat (48 + number % 10) ∧ UInt8.ofNat (48 + number % 10) ≤ 57 := by
  have value : (UInt8.ofNat (48 + number % 10)).toNat = 48 + number % 10 := by
    rw [UInt8.toNat_ofNat']
    omega
  rw [UInt8.le_iff_toNat_le, UInt8.le_iff_toNat_le, value]
  change 48 ≤ _ ∧ _ ≤ 57
  omega

theorem decimal_padded (width number : Nat) : Utils.Decimal (padded width number) := by
  induction width generalizing number with
  | zero => rintro digit ⟨⟩
  | succ width induction =>
      intro digit member
      obtain inside | inside := List.mem_append.mp member
      · exact induction _ digit inside
      · rw [List.mem_singleton.mp inside]
        exact digit_range number

theorem value_padded {width number : Nat} (fits : number < 10 ^ width) :
    decimal (padded width number) = number := by
  induction width generalizing number with
  | zero =>
      rw [Nat.lt_one_iff.mp fits]
      rfl
  | succ width induction =>
      have quotient : number / 10 < 10 ^ width := by
        rw [Nat.div_lt_iff_lt_mul (by decide), ← pow_succ]
        exact fits
      have last : (UInt8.ofNat (48 + number % 10)).toNat = 48 + number % 10 := by
        rw [UInt8.toNat_ofNat']
        omega
      rw [padded, decimal, List.foldl_append, ← decimal, induction quotient, List.foldl_cons,
        List.foldl_nil, Utils.decimalShift, last]
      omega

theorem take_padded (front back number : Nat) :
    (padded (front + back) number).take front = padded front (number / 10 ^ back) := by
  induction back generalizing number with
  | zero => rw [Nat.add_zero, List.take_of_length_le (by simp), pow_zero, Nat.div_one]
  | succ back induction =>
      rw [← Nat.add_assoc, padded, List.take_append_of_le_length (by simp), induction,
        Nat.div_div_eq_div_mul, pow_succ']

theorem integerValue_padded {width number : Nat} (fits : number < 10 ^ width)
    (positive : 0 < width) :
    integerValue (padded width number) = some (number : Int) := by
  let numeral : Utils.Numeral :=
    { digits := padded width number
      some_digit := by
        intro none_there
        have := congrArg List.length none_there
        rw [length_padded] at this
        exact absurd this (Nat.ne_of_gt positive)
      decimal := decimal_padded width number }
  have read := @Utils.integerValue_numeral numeral [] [] (by rintro _ ⟨⟩) (by rintro _ ⟨⟩)
  rw [List.nil_append, List.append_nil, if_neg (by simp)] at read
  rw [read, Utils.Numeral.value]
  exact congrArg (fun value : Nat => some (value : Int)) (value_padded fits)

theorem numberIn_padded {width number low high : Nat} (fits : number < 10 ^ width)
    (positive : 0 < width) (inside : low ≤ number ∧ number ≤ high) :
    numberIn low high (padded width number) = .ok number := by
  rw [numberIn, valueIn, integerValue_padded fits positive]
  dsimp only
  rw [if_pos (by omega)]
  rfl

theorem i2d_eq {number : Nat} (small : number < 100) : i2d number = padded 2 number := by
  have all : ∀ number : Fin 100, i2d number = padded 2 number := by decide +kernel
  exact all ⟨number, small⟩

/-! ## Slices -/

section Slices

variable {front field back : Text} {first last : Nat}

theorem slice_eq (first_eq : front.length + 1 = first)
    (last_eq : front.length + field.length = last) :
    slice (front ++ (field ++ back)) first last = .ok field := by
  subst first_eq last_eq
  rw [slice]
  split_ifs with null inside
  · rw [List.eq_nil_of_length_eq_zero (by omega : field.length = 0)]
  · rw [← List.append_assoc, ← List.length_append, List.take_left,
      Nat.add_sub_cancel, List.drop_left]
  · simp only [List.length_append] at inside
    omega

/-- A time zone begins behind digits and a point. -/
theorem tzFirst_eq {octet : Octet} (start_eq : front.length + 1 = first)
    (plain : ∀ octet ∈ field, octet ∉ text "+-Z") (sign : octet ∈ text "+-Z") :
    tzFirst (front ++ (field ++ octet :: back)) first = .ok (first + field.length) := by
  subst start_eq
  have found : (field ++ octet :: back).findIdx? (fun octet => octet ∈ text "+-Z") =
      some field.length := by
    have misses := List.findIdx?_eq_none_iff.mpr
      fun octet member => decide_eq_false (plain octet member)
    rw [List.findIdx?_append, misses, List.findIdx?_cons, if_pos (decide_eq_true sign)]
    simp
  rw [tzFirst, if_pos (by simp only [List.length_append, List.length_cons]; omega),
    Nat.add_sub_cancel, List.drop_left, found]

theorem padded_plain (width number : Nat) : ∀ octet ∈ padded width number, octet ∉ text "+-Z" := by
  intro octet member zone
  have range := decimal_padded width number octet member
  have signs : ∀ octet ∈ text "+-Z", ¬(48 ≤ octet ∧ octet ≤ 57) := by decide +kernel
  exact signs octet zone range

end Slices

/-! ## The parts of an image -/

section Parts

variable {zone : Zone} {front : Text} {first : Nat}

/-- The hours and the minutes of an offset. -/
theorem offset_bounds (zone : Zone) :
    zone.offset.natAbs / 60 ≤ 28 ∧ zone.offset.natAbs % 60 < 60 ∧
      zone.offset.natAbs / 60 * 60 + zone.offset.natAbs % 60 = zone.offset.natAbs := by
  have := zone.low
  have := zone.high
  omega

theorem zoneImage_eq (nonzero : zone.offset ≠ 0) :
    zoneImage zone.offset = (if zone.offset ≥ 0 then 43 else 45) ::
      (padded 2 (zone.offset.natAbs / 60) ++ 58 :: padded 2 (zone.offset.natAbs % 60)) := by
  obtain ⟨hours, minutes, -⟩ := offset_bounds zone
  rw [zoneImage, if_neg nonzero, i2d_eq (by omega), i2d_eq (by omega)]
  split_ifs <;> rfl

theorem zoneImage_cons (zone : Zone) :
    ∃ octet back, zoneImage zone.offset = octet :: back ∧ octet ∈ text "+-Z" := by
  by_cases zero : zone.offset = 0
  · exact ⟨90, [], by rw [zoneImage, if_pos zero]; rfl, by decide +kernel⟩
  · refine ⟨_, _, zoneImage_eq zero, ?_⟩
    split_ifs <;> decide +kernel

theorem readZone_eq (first_eq : front.length + 1 = first) :
    readZone (front ++ zoneImage zone.offset) first = .ok zone.offset := by
  subst first_eq
  by_cases zero : zone.offset = 0
  · have short : (front ++ zoneImage zone.offset).length = front.length + 1 := by
      rw [zoneImage, if_pos zero, List.length_append]
      rfl
    rw [readZone, short, if_neg (by omega), zero]
    rfl
  · obtain ⟨hours_le, minutes_lt, whole⟩ := offset_bounds zone
    rw [zoneImage_eq zero]
    generalize sign_eq : (if zone.offset ≥ 0 then 43 else 45 : Octet) = sign
    generalize zone.offset.natAbs / 60 = hours at hours_le whole ⊢
    generalize zone.offset.natAbs % 60 = minutes at minutes_lt whole ⊢
    let line := front ++ sign :: (padded 2 hours ++ 58 :: padded 2 minutes)
    have length_eq : line.length = front.length + 6 := by simp [line]
    have sign_at : slice line (front.length + 1) (front.length + 1) = .ok [sign] :=
      @slice_eq front [sign] _ _ _ rfl rfl
    have hours_at : slice line (front.length + 1 + 1) (front.length + 1 + 2) = .ok
      (padded 2 hours) := by
      have split_line : line = (front ++ [sign]) ++ (padded 2 hours ++ 58 :: padded 2 minutes) := by
        simp [line]
      rw [split_line]
      exact slice_eq (by simp) (by simp)
    have minutes_at :
        slice line (front.length + 1 + 4) (front.length + 1 + 5) = .ok (padded 2 minutes) := by
      have split_line : line =
          (front ++ sign :: (padded 2 hours ++ [58])) ++ (padded 2 minutes ++ []) := by
        simp [line]
      rw [split_line]
      exact slice_eq (by simp) (by simp)
    change readZone line _ = _
    have hours_value : valueIn (-1680) 1680 (padded 2 hours) = .ok (hours : Int) := by
      rw [valueIn, integerValue_padded (by omega) (by decide)]
      exact if_pos (by omega)
    have minutes_value : valueIn (-1680) 1680 (padded 2 minutes) = .ok (minutes : Int) := by
      rw [valueIn, integerValue_padded (by omega) (by decide)]
      exact if_pos (by omega)
    have low := zone.low
    have high := zone.high
    rw [readZone, if_pos (by omega), hours_at, Http2.ok_bind, hours_value,
      Http2.ok_bind, checkOffset,
      if_pos (by omega), Http2.ok_bind, if_pos (by omega), minutes_at, Http2.ok_bind, minutes_value,
      Http2.ok_bind, checkOffset, if_pos (by omega), Http2.ok_bind, sign_at]
    have plus : ([43] : Text) ≠ text "-" := by decide +kernel
    have minus : ([45] : Text) = text "-" := by decide +kernel
    refine congrArg Except.ok ?_
    rw [← sign_eq]
    by_cases ahead : zone.offset ≥ 0
    · rw [if_pos ahead, if_neg plus]
      omega
    · rw [if_neg ahead, if_pos minus]
      omega

/-- The milliseconds, when the second is written in front of them. -/
theorem readSubSecond_eq (moment : Moment (10 ^ 9)) {back : Text}
    (first_eq : front.length = first) :
    readSubSecond (front ++ (milliPicture moment ++ back)) first
      (first + 1 + (milliPicture moment).length) = .ok (moment.tick / 10 ^ 6 * 10 ^ 6) := by
  have bound := moment.tick_lt
  by_cases whole : moment.tick = 0
  · rw [milliPicture, if_neg (not_not_intro whole), readSubSecond, if_neg (by simp), whole]
    rfl
  · have digits := take_padded 3 6 moment.tick
    rw [milliPicture, if_pos whole, digits, readSubSecond,
      if_pos (by rw [List.length_cons, length_padded]; omega),
      slice_eq (by omega) (by rw [List.length_cons, length_padded]; omega),
        Http2.ok_bind, secondDuration]
    have fraction : fixedValue (46 :: padded 3 (moment.tick / 10 ^ 6)) =
        .ok ((moment.tick / 10 ^ 6 * 10 ^ 6 : Nat) : Int) := by
      have all : (padded 3 (moment.tick / 10 ^ 6)).all isDigit = true := by
        rw [List.all_eq_true]
        intro octet member
        have := decimal_padded 3 _ octet member
        rw [isDigit, Bool.and_eq_true, decide_eq_true_eq, decide_eq_true_eq]
        exact this
      have point : isDigit 46 = false := by decide
      rw [fixedValue, List.takeWhile_cons_of_neg (by simp [point]),
        List.dropWhile_cons_of_neg (by simp [point])]
      refine (if_pos ⟨all, Or.inr (by simp [padded])⟩).trans ?_
      have nothing : decimal [] = 0 := rfl
      rw [List.take_of_length_le (by simp), length_padded, value_padded (by omega), nothing,
        Nat.zero_mul, Nat.zero_add]
    rw [fraction, Http2.ok_bind, if_pos (by omega)]
    rfl

end Parts

/-! ## The clock -/

section Clock

variable {zone : Zone} {time : Int}

theorem instant_wallClock (positive : 0 ≤ time + zone.offset * minute) :
    ((wallClock zone time).instant : Int) = time + zone.offset * minute := by
  rw [wallClock, Moment.instant_ofInstant, Int.toNat_of_nonneg positive]

theorem wallClock_of_instant {moment : Moment (10 ^ 9)}
    (same : time + zone.offset * minute = moment.instant) : wallClock zone time = moment := by
  rw [wallClock, same, Int.toNat_natCast, Moment.ofInstant_instant]

theorem timeOf_moment (moment : Moment (10 ^ 9)) (subSecond : Nat) (timeZone : Int) :
    timeOf moment.year moment.month moment.day moment.hour moment.minute moment.second subSecond
      timeZone = .ok (moment.instant - moment.tick + subSecond - timeZone * minute) := by
  rw [timeOf, if_pos moment.date_exists, Moment.instant_eq, Moment.inDay, Moment.inHour,
    Moment.inMinute]
  refine congrArg Except.ok ?_
  generalize Calendar.daysBeforeYear _ + _ = days
  push_cast
  ring

end Clock

/-! ## Where the components stand -/

section Components

variable {zone : Zone} (moment : Moment (10 ^ 9)) (front back : Text)

theorem length_datePicture : (datePicture moment).length = 10 := by simp [datePicture]

theorem length_timePicture : (timePicture moment).length = 8 := by simp [timePicture]

theorem date_slices :
    slice (datePicture moment ++ back) 1 4 = .ok (padded 4 moment.year) ∧
      slice (datePicture moment ++ back) 6 7 = .ok (padded 2 moment.month) ∧
      slice (datePicture moment ++ back) 9 10 = .ok (padded 2 moment.day) := by
  have year : datePicture moment ++ back = [] ++ (padded 4 moment.year ++
      45 :: (padded 2 moment.month ++ 45 :: (padded 2 moment.day ++ back))) := by simp [datePicture]
  have month : datePicture moment ++ back = (padded 4 moment.year ++ [45]) ++
      (padded 2 moment.month ++ 45 :: (padded 2 moment.day ++ back)) := by simp [datePicture]
  have day : datePicture moment ++ back =
    (padded 4 moment.year ++ 45 :: (padded 2 moment.month ++ [45])) ++
      (padded 2 moment.day ++ back) := by simp [datePicture]
  refine ⟨?_, ?_, ?_⟩
  · rw [year]
    exact slice_eq (by simp) (by simp)
  · rw [month]
    exact slice_eq (by simp) (by simp)
  · rw [day]
    exact slice_eq (by simp) (by simp)

theorem time_slices :
    slice (front ++ (timePicture moment ++ back)) (front.length + 1) (front.length + 2) =
        .ok (padded 2 moment.hour) ∧
      slice (front ++ (timePicture moment ++ back)) (front.length + 4) (front.length + 5) =
        .ok (padded 2 moment.minute) ∧
      slice (front ++ (timePicture moment ++ back)) (front.length + 7) (front.length + 8) =
        .ok (padded 2 moment.second) := by
  have hour : front ++ (timePicture moment ++ back) = front ++ (padded 2 moment.hour ++
      58 :: (padded 2 moment.minute ++ 58 :: (padded 2 moment.second ++ back))) := by
        simp [timePicture]
  have minute : front ++ (timePicture moment ++ back) = (front ++ (padded 2 moment.hour ++ [58])) ++
      (padded 2 moment.minute ++ 58 :: (padded 2 moment.second ++ back)) := by simp [timePicture]
  have second : front ++ (timePicture moment ++ back) = (front ++
      (padded 2 moment.hour ++ 58 :: (padded 2 moment.minute ++ [58]))) ++
      (padded 2 moment.second ++ back) := by simp [timePicture]
  refine ⟨?_, ?_, ?_⟩
  · rw [hour]
    exact slice_eq rfl (by simp)
  · rw [minute]
    exact slice_eq (by simp) (by simp)
  · rw [second]
    exact slice_eq (by simp) (by simp)

/-- The time zone is found behind the second and the milliseconds. -/
theorem tzFirst_image :
    tzFirst (front ++ (timePicture moment ++ (milliPicture moment ++ zoneImage zone.offset)))
      (front.length + 8) = .ok (front.length + 9 + (milliPicture moment).length) := by
  obtain ⟨octet, rest, image_eq, sign⟩ := zoneImage_cons zone
  have last : padded 2 moment.second =
      padded 1 (moment.second / 10) ++ padded 1 moment.second := rfl
  have split_line : front ++ (timePicture moment ++
    (milliPicture moment ++ zoneImage zone.offset)) =
      (front ++ (padded 2 moment.hour ++ 58 :: (padded 2 moment.minute ++
        58 :: padded 1 (moment.second / 10)))) ++
        ((padded 1 moment.second ++ milliPicture moment) ++ octet :: rest) := by
    simp [timePicture, last, image_eq]
  have plain : ∀ octet ∈ padded 1 moment.second ++ milliPicture moment, octet ∉ text "+-Z" := by
    intro octet member
    obtain digit | milli := List.mem_append.mp member
    · exact padded_plain _ _ octet digit
    · rw [milliPicture] at milli
      split_ifs at milli with whole
      · obtain rfl | digit := List.mem_cons.mp milli
        · decide +kernel
        · exact padded_plain _ _ octet (List.mem_of_mem_take digit)
      · exact absurd milli List.not_mem_nil
  rw [split_line, tzFirst_eq (by simp) plain sign, List.length_append, length_padded]
  exact congrArg Except.ok (by omega)

/-- The sub-second and the time zone of an image. -/
theorem readSubSecond_image :
    readSubSecond (front ++ (timePicture moment ++ (milliPicture moment ++ zoneImage zone.offset)))
      (front.length + 8) (front.length + 9 + (milliPicture moment).length) =
        .ok (moment.tick / 10 ^ 6 * 10 ^ 6) := by
  rw [← List.append_assoc]
  exact readSubSecond_eq moment (by rw [List.length_append, length_timePicture])

theorem readZone_image :
    readZone (front ++ (timePicture moment ++ (milliPicture moment ++ zoneImage zone.offset)))
      (front.length + 9 + (milliPicture moment).length) = .ok zone.offset := by
  rw [← List.append_assoc, ← List.append_assoc]
  refine readZone_eq ?_
  rw [List.length_append, List.length_append, length_timePicture]
  omega

theorem firstIndex_padded (width number : Nat) :
    firstIndex (padded (width + 1) number ++ back) = 1 := by
  refine if_neg fun minus => ?_
  have first : (padded (width + 1) number ++ back).head? = (padded (width + 1) number).head? := by
    rw [List.head?_append_of_ne_nil]
    simp [padded]
  rw [first] at minus
  have digit := decimal_padded _ _ 45 (List.mem_of_head? minus.2)
  revert digit
  decide

end Components

/-! ## Reading the images -/

section Reading

variable {zone : Zone} {time : Int}

theorem imageInstant_eq (there : Local zone time) : imageInstant zone time =
    .ok (datePicture (wallClock zone time) ++ 84 :: (timePicture (wallClock zone time) ++
      (milliPicture (wallClock zone time) ++ zoneImage zone.offset))) := by
  rw [imageInstant, splitTime, if_pos there]
  rfl

theorem imageDate_eq (there : Local zone time) :
    imageDate zone time = .ok (datePicture (wallClock zone time)) := by
  rw [imageDate, splitTime, if_pos there]
  rfl

theorem imageTime_eq (there : Local zone time) : imageTime zone time =
    .ok (timePicture (wallClock zone time) ++
      (milliPicture (wallClock zone time) ++ zoneImage zone.offset)) := by
  rw [imageTime, splitTime, if_pos there]
  rfl

/-- Without a local date there is no image. -/
theorem image_raises (away : ¬Local zone time) :
    imageInstant zone time = .error .timeError ∧ imageDate zone time = .error .timeError ∧
      imageTime zone time = .error .timeError := by
  refine ⟨?_, ?_, ?_⟩
  · rw [imageInstant, splitTime, if_neg away, Http2.error_bind]
  · rw [imageDate, splitTime, if_neg away, Http2.error_bind]
  · rw [imageTime, splitTime, if_neg away, Http2.error_bind]

theorem date_bounds (moment : Moment (10 ^ 9)) :
    1 ≤ moment.month ∧ moment.month ≤ 12 ∧ 1 ≤ moment.day ∧ moment.day ≤ 31 := by
  obtain ⟨month_low, month_high, day_low, day_high⟩ := moment.date_exists
  exact ⟨month_low, month_high, day_low, day_high.trans (Calendar.daysInMonth_le _ _)⟩

theorem readInstant_image (moment : Moment (10 ^ 9)) (low : 1901 ≤ moment.year)
    (high : moment.year ≤ 2399) :
    readInstant (datePicture moment ++ 84 :: (timePicture moment ++
      (milliPicture moment ++ zoneImage zone.offset))) =
      .ok (moment.instant - moment.tick + (moment.tick / 10 ^ 6 * 10 ^ 6 : Nat) -
        zone.offset * minute : Int) := by
  obtain ⟨month_low, month_high, day_low, day_high⟩ := date_bounds moment
  have hour := moment.hour_lt
  have minute := moment.minute_lt
  have second := moment.second_lt
  let rest := 84 :: (timePicture moment ++ (milliPicture moment ++ zoneImage zone.offset))
  have line : datePicture moment ++ rest = (datePicture moment ++ [84]) ++ (timePicture moment ++
      (milliPicture moment ++ zoneImage zone.offset)) := by simp [rest]
  have front : (datePicture moment ++ [84]).length = 11 := by simp [length_datePicture]
  have first : firstIndex (datePicture moment ++ rest) = 1 := by
    rw [datePicture, List.append_assoc]
    exact firstIndex_padded _ 3 moment.year
  obtain ⟨year_at, month_at, day_at⟩ := date_slices moment rest
  have times := time_slices moment (datePicture moment ++ [84])
    (milliPicture moment ++ zoneImage zone.offset)
  have zone_at := @tzFirst_image zone moment (datePicture moment ++ [84])
  have sub_at := @readSubSecond_image zone moment (datePicture moment ++ [84])
  have offset_at := @readZone_image zone moment (datePicture moment ++ [84])
  rw [← line, front] at times zone_at sub_at offset_at
  obtain ⟨hour_at, minute_at, second_at⟩ := times
  change readInstant (datePicture moment ++ rest) = _
  simp only [readInstant, first, zone_at, sub_at, offset_at, year_at, month_at, day_at, hour_at,
    minute_at, second_at, Http2.ok_bind, Nat.reduceAdd]
  rw [numberIn_padded (by omega) (by decide) ⟨low, high⟩, Http2.ok_bind,
    numberIn_padded (by omega) (by decide) ⟨month_low, month_high⟩, Http2.ok_bind,
    numberIn_padded (by omega) (by decide) ⟨day_low, day_high⟩, Http2.ok_bind,
    numberIn_padded (by omega) (by decide) ⟨Nat.zero_le _, by omega⟩, Http2.ok_bind,
    numberIn_padded (by omega) (by decide) ⟨Nat.zero_le _, by omega⟩, Http2.ok_bind,
    numberIn_padded (by omega) (by decide) ⟨Nat.zero_le _, by omega⟩, Http2.ok_bind,
    timeOf_moment]

/-- A date without a time zone is the start of a day of UTC. -/
theorem readDate_image (moment : Moment (10 ^ 9)) (low : 1901 ≤ moment.year)
    (high : moment.year ≤ 2399) :
    readDate (datePicture moment) = .ok ((moment.midnight (by decide)).instant : Int) := by
  obtain ⟨month_low, month_high, day_low, day_high⟩ := date_bounds moment
  have none_there : ∀ octet ∈ (datePicture moment).drop 9, octet ∉ text "+-Z" := by
    intro octet member
    have last : datePicture moment = (padded 4 moment.year ++ 45 :: (padded 2 moment.month ++
        45 :: padded 1 (moment.day / 10))) ++ padded 1 moment.day := by simp [datePicture, padded]
    rw [last, List.drop_left' (by simp)] at member
    exact padded_plain _ _ octet member
  have zone_at : tzFirst (datePicture moment) 10 = .ok 11 := by
    rw [tzFirst, length_datePicture, if_pos (Nat.le_refl 10),
      List.findIdx?_eq_none_iff.mpr fun octet member => decide_eq_false (none_there octet member)]
  have offset_at : readZone (datePicture moment) 11 = .ok 0 := by
    rw [readZone, length_datePicture]
    rfl
  obtain ⟨year_at, month_at, day_at⟩ := date_slices moment []
  rw [List.append_nil] at year_at month_at day_at
  rw [readDate, zone_at, Http2.ok_bind, offset_at, Http2.ok_bind, year_at, Http2.ok_bind,
    numberIn_padded (by omega) (by decide) ⟨low, high⟩, Http2.ok_bind, month_at, Http2.ok_bind,
    numberIn_padded (by omega) (by decide) ⟨month_low, month_high⟩, Http2.ok_bind, day_at,
    Http2.ok_bind, numberIn_padded (by omega) (by decide) ⟨day_low, day_high⟩, Http2.ok_bind]
  refine (timeOf_moment (moment.midnight (by decide)) 0 0).trans (congrArg Except.ok ?_)
  change ((moment.midnight _).instant : Int) - ((0 : Nat) : Int) +
    ((0 : Nat) : Int) - 0 * minute = _
  rw [Int.zero_mul]
  omega

/-- The time of the day of a moment, on the first day of the calendar. -/
def onFirstDay (moment : Moment (10 ^ 9)) : Moment (10 ^ 9) :=
  { moment with
    year := 1901
    month := 1
    day := 1
    tick := moment.tick / 10 ^ 6 * 10 ^ 6
    year_pos := Nat.succ_pos 1900
    date_exists := ⟨Nat.le_refl 1, by decide, Nat.le_refl 1, by decide⟩
    tick_lt := (Nat.div_mul_le_self _ _).trans_lt moment.tick_lt }

theorem readTime_image (moment : Moment (10 ^ 9)) :
    readTime (timePicture moment ++ (milliPicture moment ++ zoneImage zone.offset)) =
      .ok ((onFirstDay moment).instant - zone.offset * minute) := by
  have hour := moment.hour_lt
  have minute := moment.minute_lt
  have second := moment.second_lt
  let rest := milliPicture moment ++ zoneImage zone.offset
  have first : firstIndex (timePicture moment ++ rest) = 1 := by
    rw [timePicture, List.append_assoc]
    exact firstIndex_padded _ 1 moment.hour
  have zone_at := @tzFirst_image zone moment []
  have sub_at := @readSubSecond_image zone moment []
  have offset_at := @readZone_image zone moment []
  obtain ⟨hour_at, minute_at, second_at⟩ := time_slices moment [] rest
  simp only [List.nil_append, List.length_nil, Nat.zero_add] at zone_at sub_at offset_at
  simp only [List.nil_append, List.length_nil, Nat.zero_add] at hour_at minute_at second_at
  change readTime (timePicture moment ++ rest) = _
  simp only [readTime, first, rest, zone_at, sub_at, offset_at, hour_at, minute_at, second_at,
    Http2.ok_bind, Nat.reduceAdd]
  rw [numberIn_padded (by omega) (by decide) ⟨Nat.zero_le _, by omega⟩, Http2.ok_bind,
    numberIn_padded (by omega) (by decide) ⟨Nat.zero_le _, by omega⟩, Http2.ok_bind,
    numberIn_padded (by omega) (by decide) ⟨Nat.zero_le _, by omega⟩, Http2.ok_bind]
  refine (timeOf_moment (onFirstDay moment) _ _).trans (congrArg Except.ok ?_)
  exact congrArg (· - zone.offset * Times.minute) (Int.sub_add_cancel _ _)

end Reading

/-! ## Round trips -/

section RoundTrips

variable (zone : Zone) (time : Int)

theorem instant_roundTrip (there : Local zone time) :
    ∃ image back, imageInstant zone time = .ok image ∧ readInstant image = .ok back ∧
      back / 10 ^ 6 = time / 10 ^ 6 := by
  refine ⟨_, _, imageInstant_eq there, readInstant_image _ there.2.1 there.2.2, ?_⟩
  rw [instant_wallClock there.1]
  have seconds := Moment.instant_eq (wallClock zone time)
  rw [Moment.inDay, Moment.inHour, Moment.inMinute] at seconds
  have clock := instant_wallClock there.1
  generalize wallClock zone time = moment at seconds clock
  rw [minute] at clock ⊢
  change (_ : Int) / _ = (_ : Int) / _
  omega

/-- The same time of the day, to the millisecond. -/
def SameTime (left right : Moment (10 ^ 9)) : Prop :=
  (left.hour, left.minute, left.second, left.tick / 10 ^ 6) =
    (right.hour, right.minute, right.second, right.tick / 10 ^ 6)

theorem time_roundTrip (there : Local zone time) :
    ∃ image back, imageTime zone time = .ok image ∧ readTime image = .ok back ∧
      SameTime (wallClock zone back) (wallClock zone time) := by
  refine ⟨_, _, imageTime_eq there, readTime_image _, ?_⟩
  rw [wallClock_of_instant (Int.sub_add_cancel _ _)]
  rw [SameTime]
  refine congrArg (fun tick => ((wallClock zone time).hour, (wallClock zone time).minute,
    (wallClock zone time).second, tick)) ?_
  exact Nat.mul_div_cancel _ (by decide)

/-- The date is that of the time where UTC is not ahead of the local time, and not a day behind. -/
theorem date_roundTrip_iff :
    (∃ image back, imageDate zone time = .ok image ∧ readDate image = .ok back ∧
        (wallClock zone back).date = (wallClock zone time).date) ↔
      Local zone time ∧ 0 ≤ zone.offset ∧ zone.offset < 1440 := by
  by_cases there : Local zone time
  · rw [imageDate_eq there]
    have first_days : 2 ≤ (wallClock zone time).dayNumber := by
      have := there.2.1
      simp only [Moment.dayNumber, Calendar.daysBeforeYear]
      omega
    have read := readDate_image (wallClock zone time) there.2.1 there.2.2
    rw [Moment.instant_midnight] at read
    generalize back_eq : (((wallClock zone time).dayNumber *
      (24 * (60 * (60 * 10 ^ 9))) : Nat) : Int) =
      back at read
    have low := zone.low
    have positive : 0 ≤ back + zone.offset * minute := by
      rw [minute]
      omega
    have clock := instant_wallClock positive
    have same_iff : (wallClock zone back).date = (wallClock zone time).date ↔
        0 ≤ zone.offset ∧ zone.offset < 1440 := by
      rw [Moment.date_eq_iff _ _ (by decide), ← Moment.instant_div _ (by decide)]
      rw [minute] at clock
      omega
    constructor
    · rintro ⟨image, _, written, returned, same⟩
      obtain rfl := Except.ok.inj written
      obtain rfl := Except.ok.inj (read.symm.trans returned)
      exact ⟨there, same_iff.mp same⟩
    · rintro ⟨-, inside⟩
      exact ⟨_, _, rfl, read, same_iff.mpr inside⟩
  · refine iff_of_false ?_ fun inside => there inside.1
    rintro ⟨image, _, written, -⟩
    rw [(image_raises there).2.1] at written
    cases written

end RoundTrips

end Times
end Soap
end AdaWebServer

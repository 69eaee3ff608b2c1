import ReleaseUpgrade.Time.Calendar

/-!
# Dates and their numbers

* `Calendar.yearOf_spec`        the year of an era that a day is in;
* `Calendar.isDate_ofDayNumber`  the date of a number of days is in the calendar;
* `Calendar.dayNumber_ofDayNumber`  the number of days to it is that number.
-/

namespace ReleaseUpgrade.Calendar

/-- the days of an era before one of its years, which begin in March -/
def daysBefore (y : Nat) : Nat := 365 * y + y / 4 - y / 100 + y / 400

/-- the year that a day of an era is in -/
def yearOf (n : Nat) : Nat := (n - n / 1460 + n / 36524 - n / 146096) / 365

theorem yearOf_mono {m n : Nat} (h : m ≤ n) : yearOf m ≤ yearOf n := by
  have hday : m - m / 1460 ≤ n - n / 1460 := by omega
  have hcentury : m / 36524 - m / 146096 ≤ n / 36524 - n / 146096 := by omega
  have hle (k : Nat) : k / 146096 ≤ k / 36524 := by omega
  exact Nat.div_le_div_right (by have := hle m; have := hle n; omega)

theorem yearOf_ends :
    ∀ y < 400, yearOf (daysBefore y) = y ∧ yearOf (daysBefore (y + 1) - 1) = y := by
  decide +kernel

/-- a day of an era is in the year that has begun and not ended by then -/
theorem yearOf_spec {n : Nat} (h : n < 146097) :
    yearOf n < 400 ∧ daysBefore (yearOf n) ≤ n ∧ n < daysBefore (yearOf n + 1) := by
  have hlast : yearOf n ≤ yearOf 146096 := yearOf_mono (by omega)
  have hlt : yearOf n < 400 := Nat.lt_of_le_of_lt hlast (by decide +kernel)
  refine ⟨hlt, ?_, ?_⟩
  -- years go up with their days, so it is enough to look at both ends of each year
  · refine Nat.le_of_not_lt fun hbefore => ?_
    cases hy : yearOf n with
    | zero =>
      rw [hy] at hbefore
      exact absurd hbefore (Nat.not_lt_zero n)
    | succ y =>
      -- the day would be at the end of the year before, or earlier
      rw [hy] at hbefore hlt
      have hle := yearOf_mono (Nat.le_sub_one_of_lt hbefore)
      rw [(yearOf_ends y (by omega)).2, hy] at hle
      omega
  · refine Nat.lt_of_not_le fun hafter => ?_
    by_cases hy : yearOf n + 1 < 400
    · have hle := yearOf_mono hafter
      rw [(yearOf_ends _ hy).1] at hle
      omega
    · have hy : yearOf n = 399 := by omega
      rw [hy] at hafter
      have hera : daysBefore (399 + 1) = 146097 := by decide
      omega

theorem daysBefore_succ :
    ∀ y < 400, daysBefore (y + 1) =
      daysBefore y + 365 + if isLeapYear ((y : Int) + 1) then 1 else 0 := by
  decide +kernel

/-- the days of a year from March before one of its months -/
def daysBeforeMonth (m : Nat) : Nat := (153 * m + 2) / 5

/-- the month that a day of the year is in -/
def monthOf (day : Nat) : Nat := (5 * day + 2) / 153

theorem monthOf_spec {day : Nat} (h : day < 366) :
    monthOf day < 12 ∧ daysBeforeMonth (monthOf day) ≤ day ∧
      day < daysBeforeMonth (monthOf day + 1) := by
  unfold monthOf daysBeforeMonth
  omega

/-- the date of a day in a year of an era, all counted from zero and from March -/
def dateOf (era : Int) (year day : Nat) : Date where
  year := year + era * 400 + if monthOf day < 10 then 0 else 1
  month := if monthOf day < 10 then monthOf day + 3 else monthOf day - 9
  day := day - daysBeforeMonth (monthOf day) + 1

theorem ofDayNumber_eq (era : Int) {n : Nat} (h : n < 146097) :
    ofDayNumber (era * 146097 + n - 719468) =
      dateOf era (yearOf n) (n - daysBefore (yearOf n)) := by
  obtain ⟨hy, hbegun, hended⟩ := yearOf_spec h
  have hera : (era * 146097 + n - 719468 + 719468) / 146097 = era := by omega
  have hday : (era * 146097 + n - 719468 + 719468) % 146097 = n := by omega
  have hyear : ((n : Int) - n / 1460 + n / 36524 - n / 146096) / 365 = yearOf n := by
    unfold yearOf
    omega
  have hrest : (n : Int) - (365 * yearOf n + yearOf n / 4 - yearOf n / 100) =
      (n - daysBefore (yearOf n) : Nat) := by
    unfold daysBefore at hbegun ⊢
    omega
  have hd : n - daysBefore (yearOf n) < 366 := by
    have hlength := daysBefore_succ _ hy
    split at hlength <;> omega
  -- what is left is the month, on a day of the year
  unfold ofDayNumber
  dsimp only
  rw [hera, hday, hyear, hrest]
  generalize n - daysBefore (yearOf n) = day at hd
  obtain ⟨hm, hbefore, _⟩ := monthOf_spec hd
  have hmonth : (5 * (day : Int) + 2) / 153 = monthOf day := by
    unfold monthOf
    omega
  rw [hmonth, dateOf]
  unfold daysBeforeMonth at hbefore ⊢
  generalize monthOf day = m at hm hbefore
  rw [Date.mk.injEq]
  by_cases hspring : m < 10
  · rw [if_pos (by omega : (m : Int) < 10), if_neg (by omega), if_pos hspring, if_pos hspring]
    omega
  · rw [if_neg (by omega : ¬(m : Int) < 10), if_pos (by omega), if_neg hspring, if_neg hspring]
    omega

theorem dayNumber_dateOf (era : Int) {year day : Nat} (hy : year < 400) (hd : day < 366) :
    dayNumber (dateOf era year day) = era * 146097 + daysBefore year + day - 719468 := by
  obtain ⟨hm, hbegun, _⟩ := monthOf_spec hd
  unfold dayNumber dateOf
  dsimp only
  unfold daysBeforeMonth at hbegun ⊢
  unfold daysBefore
  generalize monthOf day = m at hm hbegun
  have hera : ((year : Int) + era * 400) / 400 = era := by omega
  have hyear : ((year : Int) + era * 400) % 400 = year := by omega
  by_cases hspring : m < 10
  · have hmonth : (((m + 3 : Nat) : Int) + 9) % 12 = m := by omega
    rw [if_pos hspring, if_pos hspring, if_neg (by omega), Int.add_zero, hera, hyear, hmonth]
    omega
  · have hmonth : (((m - 9 : Nat) : Int) + 9) % 12 = m := by omega
    rw [if_neg hspring, if_neg hspring, if_pos (by omega), Int.add_sub_cancel, hera, hyear, hmonth]
    omega

theorem isLeapYear_add_era (y era : Int) : isLeapYear (y + era * 400) = isLeapYear y := by
  unfold isLeapYear
  have h₁ : (y + era * 400) % 4 = y % 4 := by omega
  have h₂ : (y + era * 400) % 100 = y % 100 := by omega
  have h₃ : (y + era * 400) % 400 = y % 400 := by omega
  rw [h₁, h₂, h₃]

theorem isDate_dateOf (era : Int) {year day : Nat} (hy : year < 400)
    (h : daysBefore year + day < daysBefore (year + 1)) :
    isDate (dateOf era year day) = true := by
  rw [daysBefore_succ year hy] at h
  have hd : day < 366 := by
    split at h <;> omega
  obtain ⟨hm, hbegun, hended⟩ := monthOf_spec hd
  unfold isDate dateOf daysInMonth
  dsimp only
  unfold daysBeforeMonth at hbegun hended ⊢
  generalize monthOf day = m at hm hbegun hended
  simp only [Bool.and_eq_true, Bool.or_eq_true, decide_eq_true_eq]
  by_cases hspring : m < 10
  · rw [if_pos hspring, if_pos hspring]
    refine ⟨⟨⟨by omega, by omega⟩, by omega⟩, ?_⟩
    split
    · omega
    · split <;> omega
  · rw [if_neg hspring, if_neg hspring]
    have hleap : isLeapYear (year + era * 400 + 1) = isLeapYear (year + 1) := by
      rw [Int.add_right_comm, isLeapYear_add_era]
    rw [hleap]
    refine ⟨⟨⟨by omega, by omega⟩, by omega⟩, ?_⟩
    split
    · split at h <;> split <;> omega
    · split <;> omega

theorem exists_dateOf (n : Int) :
    ∃ era year day, year < 400 ∧ daysBefore year + day < daysBefore (year + 1) ∧ day < 366 ∧
      n = era * 146097 + daysBefore year + day - 719468 ∧ ofDayNumber n = dateOf era year day := by
  obtain ⟨era, d, hlt, rfl⟩ : ∃ (era : Int) (d : Nat), d < 146097 ∧
      n = era * 146097 + d - 719468 :=
    ⟨(n + 719468) / 146097, ((n + 719468) % 146097).toNat, by omega, by omega⟩
  obtain ⟨hy, hbegun, hended⟩ := yearOf_spec hlt
  have hlength := daysBefore_succ _ hy
  exact ⟨era, yearOf d, d - daysBefore (yearOf d), hy, by omega,
    by split at hlength <;> omega, by omega, ofDayNumber_eq era hlt⟩

theorem isDate_ofDayNumber (n : Int) : isDate (ofDayNumber n) = true := by
  obtain ⟨era, year, day, hy, hd, _, _, he⟩ := exists_dateOf n
  rw [he]
  exact isDate_dateOf era hy hd

theorem dayNumber_ofDayNumber (n : Int) : dayNumber (ofDayNumber n) = n := by
  obtain ⟨era, year, day, hy, _, hd, hn, he⟩ := exists_dateOf n
  rw [he, dayNumber_dateOf era hy hd, hn]

theorem year_ofDayNumber_lt {n : Int} (h : n.natAbs < 1000000000) :
    (ofDayNumber n).year.natAbs < 1000000000 := by
  obtain ⟨era, year, day, hy, _, hd, hn, he⟩ := exists_dateOf n
  rw [he, dateOf]
  unfold daysBefore at hn
  dsimp only
  split <;> omega

end ReleaseUpgrade.Calendar

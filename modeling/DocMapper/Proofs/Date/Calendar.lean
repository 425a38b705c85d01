import DocMapper.Date.Calendar

/-!
# Days of the calendar

Every day has a year, a month and a day of the month, and these count back to the day. So different
days are written differently.
-/

namespace DocMapper.CalendarDay

variable {year : Int} {month day first fuel n : Nat}

theorem ext {d e : CalendarDay} (hyear : d.year = e.year) (hmonth : d.month = e.month)
    (hday : d.day = e.day) : d = e := by
  cases d
  cases e
  simp_all

/-! ## Months and years -/

theorem daysInMonth_le (year : Int) (month : Nat) : daysInMonth year month ≤ 31 := by
  unfold daysInMonth
  split
  · split <;> decide
  · split <;> decide

theorem daysBeforeMonth_succ (year : Int) (hmonth : 1 ≤ month) :
    daysBeforeMonth year (month + 1) = daysBeforeMonth year month + daysInMonth year month := by
  cases month with
  | zero => cases hmonth
  | succ month => rfl

theorem daysBeforeMonth_thirteen (year : Int) :
    daysBeforeMonth year 13 = if isLeapYear year then 366 else 365 := by
  cases hleap : isLeapYear year <;> simp [daysBeforeMonth, daysInMonth, hleap]

/-- A year has the days of its months. -/
theorem daysBeforeYear_succ (year : Int) :
    daysBeforeYear (year + 1) = daysBeforeYear year + daysBeforeMonth year 13 := by
  have hleap : isLeapYear year = true ↔ year % 4 = 0 ∧ (year % 100 ≠ 0 ∨ year % 400 = 0) := by
    simp [isLeapYear]
  rw [daysBeforeMonth_thirteen]
  simp only [daysBeforeYear]
  by_cases hyear : isLeapYear year = true
  · rw [if_pos hyear]
    obtain ⟨hfour, hcentury⟩ := hleap.mp hyear
    omega
  · rw [if_neg hyear]
    rw [hleap] at hyear
    omega

/-- The mean length of a year gives the year of a day up to one. -/
theorem daysBeforeYear_guess (n : Int) :
    daysBeforeYear (400 * n / 146097 + 1970 - 1) ≤ n ∧
      n < daysBeforeYear (400 * n / 146097 + 1970 + 1 + 1) := by
  simp only [daysBeforeYear]
  omega

/-- A day falls in its year. -/
theorem yearOfEpochDay_spec (n : Int) :
    daysBeforeYear (yearOfEpochDay n) ≤ n ∧ n < daysBeforeYear (yearOfEpochDay n + 1) := by
  obtain ⟨hfrom, hbefore⟩ := daysBeforeYear_guess n
  unfold yearOfEpochDay
  dsimp only
  generalize 400 * n / 146097 + 1970 = guess at hfrom hbefore ⊢
  split
  · rename_i hearlier
    exact ⟨hfrom, by rwa [Int.sub_add_cancel]⟩
  · split
    · rename_i hlater
      exact ⟨hlater, hbefore⟩
    · omega

/-- A day that the months from one on have together is in one of them. -/
theorem monthAndDay_spec (hfirst : 1 ≤ first) (hfuel : first + fuel = 12)
    (hn : daysBeforeMonth year first + n < daysBeforeMonth year 13)
    (hday : monthAndDay year fuel first n = (month, day)) :
    month ≤ 12 ∧ 1 ≤ day ∧ day ≤ 31 ∧
      daysBeforeMonth year month + (day - 1) = daysBeforeMonth year first + n := by
  have hdays := daysBeforeMonth_succ year hfirst
  have hle := daysInMonth_le year first
  induction fuel generalizing first n with
  | zero =>
    cases hday
    obtain rfl : month = 12 := hfuel
    have hyear : daysBeforeMonth year 13 = daysBeforeMonth year 12 + daysInMonth year 12 := hdays
    omega
  | succ fuel ih =>
    rw [monthAndDay] at hday
    split at hday
    · cases hday
      omega
    · have hrest := ih (by omega) (by omega) (by omega) hday
        (daysBeforeMonth_succ year (by omega)) (daysInMonth_le year _)
      omega

/-! ## Days -/

/-- The parts of a day count back to it. -/
theorem ofEpochDay_spec (n : Int) :
    (ofEpochDay n).toEpochDay = n ∧ (ofEpochDay n).month ≤ 12 ∧ (ofEpochDay n).day ≤ 31 := by
  obtain ⟨hfrom, hbefore⟩ := yearOfEpochDay_spec n
  rw [daysBeforeYear_succ] at hbefore
  obtain ⟨⟨month, day⟩, hday⟩ : ∃ parts, monthAndDay (yearOfEpochDay n) 11 1
      (n - daysBeforeYear (yearOfEpochDay n)).toNat = parts := ⟨_, rfl⟩
  have hone : daysBeforeMonth (yearOfEpochDay n) 1 = 0 := rfl
  obtain ⟨hmonth, hfirst, hlast, hcount⟩ := monthAndDay_spec (by decide) rfl (by omega) hday
  have hparts : ofEpochDay n = ⟨yearOfEpochDay n, month, day⟩ := by
    rw [ofEpochDay, hday]
  rw [hparts]
  refine ⟨?_, hmonth, hlast⟩
  simp only [toEpochDay]
  omega

theorem ofEpochDay_inj {m n : Int} (heq : ofEpochDay m = ofEpochDay n) : m = n := by
  rw [← (ofEpochDay_spec m).1, heq, (ofEpochDay_spec n).1]

end DocMapper.CalendarDay

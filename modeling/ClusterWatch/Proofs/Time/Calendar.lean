import ClusterWatch.Time.Basic
import Mathlib.Order.Monotone.Basic

/-!
# Dates and days

A day lies in an era of 400 years, in a year of this era that begins in March, and has a number in this year;
`dateOf` is its date. Counting the days of the date leads back to the day (`toDays_ofDays`), and every such date
is in the calendar (`isValid_ofDays`).
-/

namespace ClusterWatch.Time

/-- The days of an era before one of its years. -/
def yearStart (y : Nat) : Nat := 365 * y + y / 4 - y / 100 + y / 400

/-- The year of an era to which one of its days belongs. -/
def yearOfDay (d : Nat) : Nat := (d - d / 1460 + d / 36524 - d / 146096) / 365

theorem monotone_yearOfDay : Monotone yearOfDay := by
  apply monotone_nat_of_le_succ
  intro d
  apply Nat.div_le_div_right
  omega

/-- The first and the last day of a year belong to it. -/
theorem yearOfDay_ends : ∀ y < 400, yearOfDay (yearStart y) = y ∧ yearOfDay (yearStart (y + 1) - 1) = y := by
  decide +kernel

theorem yearOfDay_eq {y d : Nat} (hy : y < 400) (hstart : yearStart y ≤ d) (hend : d < yearStart (y + 1)) :
    yearOfDay d = y := by
  obtain ⟨hfirst, hlast⟩ := yearOfDay_ends y hy
  have hlow : yearOfDay (yearStart y) ≤ yearOfDay d := monotone_yearOfDay hstart
  have hhigh : yearOfDay d ≤ yearOfDay (yearStart (y + 1) - 1) := monotone_yearOfDay (by omega)
  omega

theorem exists_year (n : Nat) {d : Nat} (h : d < yearStart n) :
    ∃ y < n, yearStart y ≤ d ∧ d < yearStart (y + 1) := by
  induction n with
  | zero => cases h
  | succ n ih =>
    by_cases hn : d < yearStart n
    · obtain ⟨y, hy, hd⟩ := ih hn
      exact ⟨y, by omega, hd⟩
    · exact ⟨n, by omega, by omega, h⟩

/-- The date of a day of a year. -/
def dateOf (era : Int) (y day : Nat) : Date :=
  let month := (5 * day + 2) / 153
  let monthDay := day - (153 * month + 2) / 5 + 1
  let month := if month < 10 then month + 3 else month - 9
  ⟨era * 400 + y + (if month ≤ 2 then 1 else 0), month, monthDay⟩

theorem ofDays_eq {days era : Int} {y day : Nat} (hy : y < 400) (hday : yearStart y + day < yearStart (y + 1))
    (hdays : days + 719468 = era * 146097 + yearStart y + day) : Date.ofDays days = dateOf era y day := by
  have hyear : yearOfDay (yearStart y + day) = y := yearOfDay_eq hy (Nat.le_add_right ..) hday
  have hlast : yearStart y + day < 146097 := by
    have h : yearStart (y + 1) ≤ 146097 := by
      simp only [yearStart]
      omega
    omega
  have hera : (days + 719468) / 146097 = era := by omega
  have hrest : (days + 719468) % 146097 = (yearStart y + day : Nat) := by omega
  generalize hd : yearStart y + day = d at *
  have hyearInt : ((d : Int) - d / 1460 + d / 36524 - d / 146096) / 365 = y := by
    simp only [yearOfDay] at hyear
    omega
  have hdayOfYear : ((d : Int) - (365 * y + y / 4 - y / 100)).toNat = day := by
    simp only [yearStart] at hd
    omega
  simp only [Date.ofDays, hera, hrest, hyearInt, hdayOfYear, dateOf]

/-- Every day lies in a year of an era. -/
theorem exists_ofDays_eq (days : Int) : ∃ era y day, y < 400 ∧ yearStart y + day < yearStart (y + 1) ∧
    days + 719468 = era * 146097 + yearStart y + day ∧ Date.ofDays days = dateOf era y day := by
  obtain ⟨d, hd⟩ := Int.eq_ofNat_of_zero_le (Int.emod_nonneg (days + 719468) (by decide : (146097 : Int) ≠ 0))
  have hlt : d < yearStart 400 := by
    show d < 146097
    omega
  obtain ⟨y, hy, hstart, hend⟩ := exists_year 400 hlt
  have hday : yearStart y + (d - yearStart y) = d := by omega
  refine ⟨(days + 719468) / 146097, y, d - yearStart y, hy, by omega, by omega, ?_⟩
  exact ofDays_eq hy (by omega) (by omega)

theorem length_year (y : Nat) : yearStart (y + 1) ≤ yearStart y + 366 := by
  simp only [yearStart]
  omega

theorem toDays_dateOf {era : Int} {y day : Nat} (hy : y < 400)
    (hday : yearStart y + day < yearStart (y + 1)) :
    (dateOf era y day).toDays = era * 146097 + yearStart y + day - 719468 := by
  have hlength := length_year y
  obtain ⟨m, hmonth⟩ : ∃ m, (5 * day + 2) / 153 = m := ⟨_, rfl⟩
  have hstart : (153 * m + 2) / 5 ≤ day := by omega
  have hera : (era * 400 + y) / 400 = era := by omega
  have hyear : (era * 400 + y) % 400 = y := by omega
  simp only [dateOf, Date.toDays, hmonth]
  by_cases hm : m < 10
  · -- From March to December the year is that of the era.
    have hback : (m + 3 + 9) % 12 = m := by omega
    simp only [if_pos hm, if_neg (show ¬ m + 3 ≤ 2 by omega), Int.add_zero, hera, hyear, hback, yearStart]
    omega
  · have hback : (m - 9 + 9) % 12 = m := by omega
    simp only [if_neg hm, if_pos (show m - 9 ≤ 2 by omega), Int.add_sub_cancel, hera, hyear, hback, yearStart]
    omega

theorem toDays_ofDays (days : Int) : (Date.ofDays days).toDays = days := by
  obtain ⟨era, y, day, hy, hday, hdays, hdate⟩ := exists_ofDays_eq days
  rw [hdate, toDays_dateOf hy hday]
  omega

/-- The month of a day of a year that begins in March, and the day of this month. -/
theorem monthDay_le : ∀ day < 366,
    let m := (5 * day + 2) / 153
    let month := if m < 10 then m + 3 else m - 9
    let monthDay := day - (153 * m + 2) / 5 + 1
    1 ≤ month ∧ month ≤ 12 ∧ (month ≠ 2 → monthDay ≤ daysInMonth 0 month) ∧
      (month = 2 → monthDay ≤ 29 ∧ (day < 365 → monthDay ≤ 28)) := by
  decide +kernel

theorem daysInMonth_of_ne {month : Nat} (h : month ≠ 2) (year year' : Int) :
    daysInMonth year month = daysInMonth year' month := by
  unfold daysInMonth
  split
  case h_1 => exact absurd rfl h
  all_goals rfl

/-- A year that begins in March has a day more if the next year is a leap year. -/
theorem isLeapYear_of_length {era : Int} {y : Nat} (hy : y < 400)
    (h : yearStart (y + 1) = yearStart y + 366) : isLeapYear (era * 400 + y + 1) = true := by
  simp only [yearStart] at h
  simp only [isLeapYear, Bool.and_eq_true, Bool.or_eq_true, decide_eq_true_eq]
  omega

theorem isValid_dateOf {era : Int} {y day : Nat} (hy : y < 400)
    (hday : yearStart y + day < yearStart (y + 1)) : (dateOf era y day).isValid = true := by
  have hlength := length_year y
  obtain ⟨hlow, hhigh, hother, hfebruary⟩ := monthDay_le day (by omega)
  simp only [Date.isValid, Bool.and_eq_true, decide_eq_true_eq]
  simp only [dateOf]
  refine ⟨⟨⟨hlow, hhigh⟩, Nat.le_add_left ..⟩, ?_⟩
  obtain ⟨month, hmonth⟩ : ∃ month,
      (if (5 * day + 2) / 153 < 10 then (5 * day + 2) / 153 + 3 else (5 * day + 2) / 153 - 9) = month := ⟨_, rfl⟩
  simp only [hmonth] at hother hfebruary ⊢
  by_cases h : month = 2
  · subst h
    obtain ⟨hle, hshort⟩ := hfebruary rfl
    by_cases hlast : day < 365
    · have hdays : 28 ≤ daysInMonth (era * 400 + y + 1) 2 := by
        show 28 ≤ if _ then 29 else 28
        split <;> omega
      exact (hshort hlast).trans hdays
    · have hleap := @isLeapYear_of_length era y hy (by omega)
      show _ ≤ if _ then 29 else 28
      simpa [hleap] using hle
  · rw [daysInMonth_of_ne h _ 0]
    exact hother h

/-- The calendar has the date of every day. -/
theorem isValid_ofDays (days : Int) : (Date.ofDays days).isValid = true := by
  obtain ⟨era, y, day, hy, hday, -, hdate⟩ := exists_ofDays_eq days
  rw [hdate]
  exact isValid_dateOf hy hday

end ClusterWatch.Time

import Mathlib.Tactic.IntervalCases
import Mathlib.Tactic.Linarith

/-! # The Gregorian calendar by day numbers

Days are counted from 1 January 1970. The date of a day is computed by the arithmetic of eras
of 400 years that begin on 1 March, and the date of the day after is the calendar's next
date.
-/

namespace Wbme.Lib.Calendar

structure Date where
  year : Int
  month : Int
  day : Int
deriving DecidableEq

def isLeap (year : Int) : Bool :=
  year % 4 = 0 ∧ (year % 100 ≠ 0 ∨ year % 400 = 0)

def daysInMonth (year month : Int) : Int :=
  if month = 2 then (if isLeap year then 29 else 28)
  else if month = 4 ∨ month = 6 ∨ month = 9 ∨ month = 11 then 30
  else 31

/-- A date of the calendar. -/
structure Date.Valid (d : Date) : Prop where
  month_pos : 1 ≤ d.month
  month_le : d.month ≤ 12
  day_pos : 1 ≤ d.day
  day_le : d.day ≤ daysInMonth d.year d.month

/-- The date after. -/
def Date.next (d : Date) : Date :=
  if d.day < daysInMonth d.year d.month then { d with day := d.day + 1 }
  else if d.month < 12 then { d with month := d.month + 1, day := 1 }
  else { year := d.year + 1, month := 1, day := 1 }

theorem daysInMonth_ge (year month : Int) : 28 ≤ daysInMonth year month := by
  unfold daysInMonth
  split
  · split <;> omega
  · split <;> omega

/-! ## Years that begin on 1 March -/

/-- The days before a year, the years beginning on 1 March and counted from year 0. -/
def yearStart (year : Int) : Int := 365 * year + year / 4 - year / 100 + year / 400

/-- The numerator that turns a day of an era into its year. -/
def leapless (dayOfEra : Int) : Int :=
  dayOfEra - dayOfEra / 1460 + dayOfEra / 36524 - dayOfEra / 146096

def yearOfEra (dayOfEra : Int) : Int := leapless dayOfEra / 365

theorem leapless_mono {a b : Int} (h : a ≤ b) : leapless a ≤ leapless b := by
  unfold leapless
  omega

/-- A year of an era by its century and its place in it. -/
theorem yearStart_century {c d : Int} (hc0 : 0 ≤ c) (hc : c < 4) (hd0 : 0 ≤ d) (hd : d < 100) :
    yearStart (100 * c + d) = 36524 * c + 365 * d + d / 4 := by
  have h1 : (100 * c + d) / 100 = c := by omega
  have h2 : (100 * c + d) / 400 = 0 := by omega
  have h3 : (100 * c + d) / 4 = 25 * c + d / 4 := by omega
  rw [yearStart, h1, h2, h3]
  omega

theorem leapless_century {c e : Int} (hc0 : 0 ≤ c) (hc : c < 4) (he0 : 0 ≤ e) (he : e < 36524) :
    leapless (36524 * c + e) = 36525 * c + e - (36524 * c + e) / 1460 := by
  have h1 : (36524 * c + e) / 36524 = c := by omega
  have h2 : (36524 * c + e) / 146096 = 0 := by omega
  rw [leapless, h1, h2]
  omega

theorem yearOfEra_first {year : Int} (h0 : 0 ≤ year) (h : year < 400) :
    yearOfEra (yearStart year) = year := by
  obtain ⟨c, d, rfl, hc0, hc, hd0, hd⟩ : ∃ c d : Int,
      year = 100 * c + d ∧ 0 ≤ c ∧ c < 4 ∧ 0 ≤ d ∧ d < 100 :=
    ⟨year / 100, year % 100, by omega, by omega, by omega, by omega, by omega⟩
  rw [yearOfEra, yearStart_century hc0 hc hd0 hd, Int.add_assoc,
    leapless_century hc0 hc (by omega) (by omega)]
  omega

theorem yearOfEra_last {year : Int} (h0 : 0 ≤ year) (h : year < 400) :
    yearOfEra (yearStart (year + 1) - 1) = year := by
  obtain ⟨c, d, rfl, hc0, hc, hd0, hd⟩ : ∃ c d : Int,
      year = 100 * c + d ∧ 0 ≤ c ∧ c < 4 ∧ 0 ≤ d ∧ d < 100 :=
    ⟨year / 100, year % 100, by omega, by omega, by omega, by omega, by omega⟩
  by_cases hend : d = 99
  · subst hend
    have hcases : c = 0 ∨ c = 1 ∨ c = 2 ∨ c = 3 := by omega
    rcases hcases with rfl | rfl | rfl | rfl <;> decide
  · rw [yearOfEra, Int.add_assoc, yearStart_century hc0 hc (by omega) (by omega)]
    have hsplit : 36524 * c + 365 * (d + 1) + (d + 1) / 4 - 1 =
        36524 * c + (365 * (d + 1) + (d + 1) / 4 - 1) := by omega
    rw [hsplit, leapless_century hc0 hc (by omega) (by omega)]
    omega

theorem yearOfEra_of_bounds {e year : Int} (h0 : 0 ≤ year) (h1 : year < 400)
    (hl : yearStart year ≤ e) (hu : e < yearStart (year + 1)) : yearOfEra e = year := by
  have hfirst := yearOfEra_first h0 h1
  have hlast := yearOfEra_last h0 h1
  have hlow : leapless (yearStart year) ≤ leapless e := leapless_mono hl
  have hhigh : leapless e ≤ leapless (yearStart (year + 1) - 1) := leapless_mono (by omega)
  simp only [yearOfEra] at hfirst hlast ⊢
  omega

theorem exists_year {e : Int} (n : Nat) (h0 : 0 ≤ e) (h : e < yearStart n) :
    ∃ year : Int, 0 ≤ year ∧ year < n ∧ yearStart year ≤ e ∧ e < yearStart (year + 1) := by
  induction n with
  | zero =>
      simp [yearStart] at h
      omega
  | succ n ih =>
      by_cases hn : e < yearStart n
      · obtain ⟨year, h1, h2, h3, h4⟩ := ih hn
        exact ⟨year, h1, by omega, h3, h4⟩
      · exact ⟨n, by omega, by omega, by omega, by simpa using h⟩

/-- The year of a day counted from 1 March of year 0. -/
def marchYear (days : Int) : Int := yearOfEra (days % 146097) + days / 146097 * 400

theorem yearStart_add_era (year era : Int) :
    yearStart (year + era * 400) = yearStart year + era * 146097 := by
  unfold yearStart
  omega

theorem yearOfEra_spec (days : Int) :
    0 ≤ yearOfEra (days % 146097) ∧ yearOfEra (days % 146097) < 400 ∧
      yearStart (yearOfEra (days % 146097)) ≤ days % 146097 ∧
      days % 146097 < yearStart (yearOfEra (days % 146097) + 1) := by
  have h0 : 0 ≤ days % 146097 := Int.emod_nonneg _ (by omega)
  have hlt : days % 146097 < yearStart (400 : Nat) := by
    have : yearStart (400 : Nat) = 146097 := by decide
    omega
  obtain ⟨year, h1, h2, h3, h4⟩ := exists_year 400 h0 hlt
  rw [yearOfEra_of_bounds h1 (by omega) h3 h4]
  exact ⟨h1, h2, h3, h4⟩

theorem marchYear_spec (days : Int) :
    yearStart (marchYear days) ≤ days ∧ days < yearStart (marchYear days + 1) := by
  obtain ⟨-, -, hl, hu⟩ := yearOfEra_spec days
  have hnext : marchYear days + 1 =
      yearOfEra (days % 146097) + 1 + days / 146097 * 400 := by
    unfold marchYear
    omega
  rw [hnext, marchYear, yearStart_add_era, yearStart_add_era]
  omega

/-- The day of the year, computed within the era. -/
theorem dayOfYear_eq (days : Int) :
    days - yearStart (marchYear days) =
      days % 146097 - (365 * yearOfEra (days % 146097) + yearOfEra (days % 146097) / 4 -
        yearOfEra (days % 146097) / 100) := by
  obtain ⟨h0, h1, -, -⟩ := yearOfEra_spec days
  rw [marchYear, yearStart_add_era]
  unfold yearStart
  omega

theorem yearStart_mono {a b : Int} (h : a ≤ b) : yearStart a ≤ yearStart b := by
  unfold yearStart
  omega

theorem marchYear_unique {days year : Int} (hl : yearStart year ≤ days)
    (hu : days < yearStart (year + 1)) : marchYear days = year := by
  have hspec := marchYear_spec days
  by_contra hne
  rcases Int.lt_or_gt_of_ne hne with hlt | hgt
  · have := yearStart_mono (show marchYear days + 1 ≤ year by omega)
    omega
  · have := yearStart_mono (show year + 1 ≤ marchYear days by omega)
    omega

variable (year : Int)

theorem yearStart_succ :
    yearStart (year + 1) = yearStart year + (if isLeap (year + 1) then 366 else 365) := by
  unfold yearStart isLeap
  simp only [decide_eq_true_eq]
  split <;> omega

/-! ## Days of such a year -/

/-- Months counted from March. -/
def shiftedMonth (dayOfYear : Int) : Int := (5 * dayOfYear + 2) / 153

/-- The date of a day of the year that begins on 1 March of the given year. -/
def dateIn (marchYear dayOfYear : Int) : Date :=
  let shifted := shiftedMonth dayOfYear
  let month := if shifted < 10 then shifted + 3 else shifted - 9
  { year := marchYear + (if month ≤ 2 then 1 else 0), month,
    day := dayOfYear - (153 * shifted + 2) / 5 + 1 }

/-- The date of a day counted from 1 January 1970. -/
def ofDay (n : Int) : Date :=
  dateIn (marchYear (n + 719468)) (n + 719468 - yearStart (marchYear (n + 719468)))

/-- Where a day stands in its month: the month counted from March is the one whose first day
is the last not after it. -/
theorem shiftedMonth_spec {d : Int} (h0 : 0 ≤ d) (h1 : d < 366) :
    0 ≤ shiftedMonth d ∧ shiftedMonth d < 12 ∧
      153 * shiftedMonth d ≤ 5 * d + 2 ∧ 5 * d + 2 < 153 * (shiftedMonth d + 1) := by
  unfold shiftedMonth
  omega

/-- The length of a year from March to February. -/
def yearLength (year : Int) : Int := if isLeap (year + 1) then 366 else 365

theorem daysInMonth_of_ne {year month : Int} (h : month ≠ 2) :
    daysInMonth year month =
      if month = 4 ∨ month = 6 ∨ month = 9 ∨ month = 11 then 30 else 31 := by
  rw [daysInMonth, if_neg h]

theorem daysInMonth_february : daysInMonth year 2 = if isLeap year then 29 else 28 := by
  rw [daysInMonth, if_pos rfl]

/-- The month of the calendar for a month counted from March. -/
def monthOf (shifted : Int) : Int := if shifted < 10 then shifted + 3 else shifted - 9

/-- The first day of a month counted from March, as a day of the year. -/
def monthStart (shifted : Int) : Int := (153 * shifted + 2) / 5

theorem dateIn_eq (year d : Int) :
    dateIn year d =
      { year := year + (if monthOf (shiftedMonth d) ≤ 2 then 1 else 0),
        month := monthOf (shiftedMonth d), day := d - monthStart (shiftedMonth d) + 1 } := rfl

theorem dateIn_february {d : Int} (h : shiftedMonth d = 11) :
    dateIn year d = { year := year + 1, month := 2, day := d - 336 } := by
  have hstart : monthStart 11 = 337 := by decide
  rw [dateIn_eq, h, hstart]
  simp [monthOf]
  omega

/-- Every month but February is as long as the starts of the months say. -/
theorem daysInMonth_monthOf {s : Int} (h0 : 0 ≤ s) (h1 : s < 11) :
    daysInMonth year (monthOf s) = monthStart (s + 1) - monthStart s := by
  have hne : monthOf s ≠ 2 := by
    unfold monthOf
    split <;> omega
  rw [daysInMonth_of_ne hne]
  interval_cases s <;> decide

theorem Date.next_of_lt {d : Date} (h : d.day < daysInMonth d.year d.month) :
    d.next = { d with day := d.day + 1 } := if_pos h

theorem Date.next_of_last {d : Date} (h : ¬ d.day < daysInMonth d.year d.month) :
    d.next = if d.month < 12 then { d with month := d.month + 1, day := 1 }
      else { year := d.year + 1, month := 1, day := 1 } := if_neg h

theorem dateIn_valid {year d : Int} (h0 : 0 ≤ d) (h1 : d < yearLength year) :
    (dateIn year d).Valid := by
  have hlen : yearLength year ≤ 366 := by
    unfold yearLength
    split <;> omega
  obtain ⟨hs0, hs1, hs2, hs3⟩ := shiftedMonth_spec h0 (by omega)
  by_cases hfeb : shiftedMonth d = 11
  · rw [dateIn_february year hfeb]
    have hday : d - 336 ≤ daysInMonth (year + 1) 2 := by
      rw [daysInMonth_february]
      unfold yearLength at h1
      split at h1 <;> simp [*] <;> omega
    exact { month_pos := by simp, month_le := by simp, day_pos := by simp; omega, day_le := hday }
  · rw [dateIn_eq]
    have hmonths := daysInMonth_monthOf
      (year + (if monthOf (shiftedMonth d) ≤ 2 then 1 else 0)) hs0 (by omega)
    have hstart : monthStart (shiftedMonth d) ≤ d ∧ d < monthStart (shiftedMonth d + 1) := by
      unfold monthStart
      omega
    have hmonth : 1 ≤ monthOf (shiftedMonth d) ∧ monthOf (shiftedMonth d) ≤ 12 := by
      unfold monthOf
      split <;> omega
    exact {
      month_pos := hmonth.1
      month_le := hmonth.2
      day_pos := by simp; omega
      day_le := by simp only [hmonths]; omega
    }

/-- The day after, when it is of the same year. -/
theorem dateIn_next {year d : Int} (h0 : 0 ≤ d) (h1 : d + 1 < yearLength year) :
    dateIn year (d + 1) = (dateIn year d).next := by
  have hlen : yearLength year ≤ 366 := by
    unfold yearLength
    split <;> omega
  obtain ⟨hs0, hs1, hs2, hs3⟩ := shiftedMonth_spec h0 (by omega)
  obtain ⟨-, ht1, ht2, ht3⟩ := shiftedMonth_spec (show 0 ≤ d + 1 by omega) (by omega)
  by_cases hfeb : shiftedMonth d = 11
  · have hnext : shiftedMonth (d + 1) = 11 := by omega
    have hday : d - 336 < daysInMonth (year + 1) 2 := by
      rw [daysInMonth_february]
      unfold yearLength at h1
      split at h1 <;> simp [*] <;> omega
    rw [dateIn_february year hfeb, dateIn_february year hnext, Date.next_of_lt hday]
    simp
    omega
  · have hmonths := daysInMonth_monthOf
      (year + (if monthOf (shiftedMonth d) ≤ 2 then 1 else 0)) hs0 (by omega)
    have hstart : monthStart (shiftedMonth d) ≤ d ∧ d < monthStart (shiftedMonth d + 1) := by
      unfold monthStart
      omega
    have hcases : (shiftedMonth (d + 1) = shiftedMonth d ∧
          d + 1 < monthStart (shiftedMonth d + 1)) ∨
        (shiftedMonth (d + 1) = shiftedMonth d + 1 ∧
          d + 1 = monthStart (shiftedMonth d + 1)) := by
      unfold monthStart
      omega
    rw [dateIn_eq year d, dateIn_eq year (d + 1)]
    -- the next day is of the same month or the first of the following one
    rcases hcases with ⟨hsame, hlt⟩ | ⟨hnext, hfirst⟩
    · rw [Date.next_of_lt (by simp only [hmonths]; omega), hsame]
      simp
      omega
    · rw [Date.next_of_last (by simp only [hmonths]; omega), hnext]
      have hs : shiftedMonth d < 11 := by omega
      generalize shiftedMonth d = s at *
      simp only [hfirst]
      interval_cases s <;> simp [monthOf]

/-- The last day of a year from March to February is followed by 1 March. -/
theorem dateIn_next_last : dateIn (year + 1) 0 = (dateIn year (yearLength year - 1)).next := by
  unfold yearLength
  by_cases hleap : isLeap (year + 1) = true
  · simp [dateIn, shiftedMonth, Date.next, daysInMonth_february, hleap]
  · simp [dateIn, shiftedMonth, Date.next, daysInMonth_february, hleap]

/-! ## The date of a day -/

theorem dayOfYear_bounds (days : Int) :
    0 ≤ days - yearStart (marchYear days) ∧
      days - yearStart (marchYear days) < yearLength (marchYear days) := by
  have hspec := marchYear_spec days
  have hsucc := yearStart_succ (marchYear days)
  unfold yearLength
  omega

theorem ofDay_valid (n : Int) : (ofDay n).Valid :=
  dateIn_valid (dayOfYear_bounds _).1 (dayOfYear_bounds _).2

/-- The date of the day after is the next date. -/
theorem ofDay_succ (n : Int) : ofDay (n + 1) = (ofDay n).next := by
  unfold ofDay
  rw [show n + 1 + 719468 = n + 719468 + 1 by omega]
  generalize n + 719468 = days
  have hspec := marchYear_spec days
  have hbounds := dayOfYear_bounds days
  have hsucc : yearStart (marchYear days + 1) =
      yearStart (marchYear days) + yearLength (marchYear days) := yearStart_succ _
  by_cases hlast : days + 1 < yearStart (marchYear days + 1)
  · have hyear : marchYear (days + 1) = marchYear days :=
      marchYear_unique (by omega) hlast
    rw [hyear, show days + 1 - yearStart (marchYear days) =
      days - yearStart (marchYear days) + 1 by omega]
    exact dateIn_next hbounds.1 (by omega)
  · have hday : days + 1 = yearStart (marchYear days + 1) := by omega
    have hyear : marchYear (days + 1) = marchYear days + 1 := by
      apply marchYear_unique
      · omega
      · have := yearStart_succ (marchYear days + 1)
        split at this <;> omega
    rw [hyear, show days + 1 - yearStart (marchYear days + 1) = 0 by omega,
      show days - yearStart (marchYear days) = yearLength (marchYear days) - 1 by omega]
    exact dateIn_next_last _

end Wbme.Lib.Calendar

import Wbme.Lib.Calendar
import Wbme.TableQuery.Filters

/-! # Relative dates

The day that it is comes from the calendar of the zone Asia/Shanghai, with its summer times; the
bounds of a range are read from texts that put it eight hours ahead. A text is read when its year
has four digits.
-/

namespace Wbme.TableQuery.RelativeDates

open Lib.Calendar (ofDay yearStart marchYear shiftedMonth dateIn)

/-! ## The range as it is computed -/

structure WrittenDate where
  year : Int
  month : Int
  day : Int

def formatShanghaiDate (zone : Int → Int) (value : Int) : WrittenDate :=
  let d := ofDay ((value + zone value) / dayMs)
  -- years before the first are written without their era
  { year := if 1 ≤ d.year then d.year else 1 - d.year, month := d.month, day := d.day }

/-- A text with any other year is no date. -/
def dayStart (year month day : Int) : Option Int :=
  if 1000 ≤ year ∧ year ≤ 9999 then some (shanghaiDayStart (daysFromCivil year month day))
  else none

def leadingFour (n : Nat) : Nat := if n < 10000 then n else leadingFour (n / 10)

/-- `Number(today.slice(0, 4))`: a shorter year is cut together with its hyphen. -/
def sliceYear (year : Int) : Option Int :=
  if year < 1000 then none else some (leadingFour year.toNat)

def relativeDateRange (zone : Int → Int) (operator : TableOperator) (now : Int) :
    Except Failure (Option Int × Option Int) :=
  let today := formatShanghaiDate zone now
  let start := dayStart today.year today.month today.day
  match operator with
  | .today => .ok (start, start.map nextDay)
  | .thisWeek =>
      let weekDay := (daysFromCivil today.year today.month today.day + 4) % 7
      let sinceMonday := (weekDay + 6) % 7
      let monday := start.map (· - sinceMonday * dayMs)
      .ok (monday, monday.map (· + 7 * dayMs))
  | .thisMonth =>
      let next := (sliceYear today.year).bind fun year =>
        if today.month = 12 then dayStart (year + 1) 1 1 else dayStart year (today.month + 1) 1
      .ok (dayStart today.year today.month 1, next)
  | .thisYear =>
      let year := sliceYear today.year
      .ok (year.bind (dayStart · 1 1), year.bind fun year => dayStart (year + 1) 1 1)
  | .last7Days => .ok (start.map (· - 6 * dayMs), start.map nextDay)
  | .last30Days => .ok (start.map (· - 29 * dayMs), start.map nextDay)
  | other => .error (validationError s!"不支持相对日期操作符 {other.name}")

/-! ## What the range should be -/

def sinceMonday (day : Int) : Int := (day + 3) % 7

def InPeriod (operator : TableOperator) (today day : Int) : Prop :=
  match operator with
  | .today => day = today
  | .thisWeek => day - sinceMonday day = today - sinceMonday today
  | .thisMonth => (ofDay day).year = (ofDay today).year ∧ (ofDay day).month = (ofDay today).month
  | .thisYear => (ofDay day).year = (ofDay today).year
  | .last7Days => today - 6 ≤ day ∧ day ≤ today
  | .last30Days => today - 29 ≤ day ∧ day ≤ today
  | _ => False

structure PeriodRange (operator : TableOperator) (now gte lt : Int) : Prop where
  midnights : ∃ first last, gte = shanghaiDayStart first ∧ lt = shanghaiDayStart last
  contains_now : gte ≤ now ∧ now < lt
  exact : ∀ t, (gte ≤ t ∧ t < lt) ↔ InPeriod operator (shanghaiDay now) (shanghaiDay t)

def zoneDay (zone : Int → Int) (now : Int) : Int := (now + zone now) / dayMs

def FourDigits (operator : TableOperator) (day : Int) : Prop :=
  1000 ≤ (ofDay day).year ∧ (ofDay day).year ≤ 9999 ∧
    (operator = .thisYear → (ofDay day).year ≠ 9999) ∧
    (operator = .thisMonth → ¬ ((ofDay day).year = 9999 ∧ (ofDay day).month = 12))

/-! ## Months and their days -/

theorem daysFromCivil_eq (year month day : Int) :
    daysFromCivil year month day = yearStart (if month ≤ 2 then year - 1 else year) +
      (153 * (if month > 2 then month - 3 else month + 9) + 2) / 5 + day - 1 - 719468 := by
  unfold daysFromCivil yearStart
  dsimp only
  split <;> omega

theorem daysFromCivil_ofDay (n : Int) :
    daysFromCivil (ofDay n).year (ofDay n).month (ofDay n).day = n := by
  obtain ⟨h0, h1⟩ := Lib.Calendar.dayOfYear_bounds (n + 719468)
  have hlength : Lib.Calendar.yearLength (marchYear (n + 719468)) ≤ 366 := by
    unfold Lib.Calendar.yearLength
    split <;> omega
  obtain ⟨hm0, hm1, -, -⟩ := Lib.Calendar.shiftedMonth_spec h0 (by omega)
  simp only [ofDay, dateIn]
  generalize shiftedMonth (n + 719468 - yearStart (marchYear (n + 719468))) = m at *
  rw [daysFromCivil_eq]
  by_cases hm : m < 10
  · rw [if_pos hm, if_neg (show ¬ m + 3 ≤ 2 by omega), if_pos (show m + 3 > 2 by omega),
      if_neg (show ¬ m + 3 ≤ 2 by omega), Int.add_zero]
    omega
  · rw [if_neg hm, if_pos (show m - 9 ≤ 2 by omega), if_neg (show ¬ m - 9 > 2 by omega),
      if_pos (show m - 9 ≤ 2 by omega), Int.add_sub_cancel]
    omega

def monthFirst (month : Int) : Int := daysFromCivil (month / 12) (month % 12 + 1) 1

theorem monthFirst_of {year month : Int} (h1 : 1 ≤ month) (h12 : month ≤ 12) :
    monthFirst (12 * year + month - 1) = daysFromCivil year month 1 := by
  have hyear : (12 * year + month - 1) / 12 = year := by omega
  have hmonth : (12 * year + month - 1) % 12 + 1 = month := by omega
  rw [monthFirst, hyear, hmonth]

theorem monthFirst_succ (year : Int) {month : Int} (h1 : 1 ≤ month) (h12 : month ≤ 12) :
    monthFirst (12 * year + month) = daysFromCivil year month 1 +
      Lib.Calendar.daysInMonth year month := by
  by_cases hlast : month = 12
  · subst hlast
    have hnext : 12 * year + 12 = 12 * (year + 1) + 1 - 1 := by omega
    rw [hnext, monthFirst_of (by omega) (by omega), daysFromCivil_eq, daysFromCivil_eq]
    simp [Lib.Calendar.daysInMonth]
    omega
  · have hnext : 12 * year + month = 12 * year + (month + 1) - 1 := by omega
    rw [hnext, monthFirst_of (by omega) (by omega), daysFromCivil_eq, daysFromCivil_eq]
    by_cases hfeb : month = 2
    · subst hfeb
      have hyear := Lib.Calendar.yearStart_succ (year - 1)
      rw [Int.sub_add_cancel] at hyear
      rw [Lib.Calendar.daysInMonth_february]
      simp only [Int.reduceLE, Int.reduceAdd, gt_iff_lt, Int.reduceLT, if_true, if_false] at *
      split at hyear <;> simp_all <;> omega
    · rw [Lib.Calendar.daysInMonth_of_ne hfeb]
      have : month < 12 := by omega
      interval_cases month <;> simp at * <;> omega

def monthIndex (day : Int) : Int := 12 * (ofDay day).year + (ofDay day).month - 1

variable (day : Int)

theorem monthIndex_bounds :
    monthFirst (monthIndex day) ≤ day ∧ day < monthFirst (monthIndex day + 1) := by
  have hvalid := Lib.Calendar.ofDay_valid day
  have hday := daysFromCivil_ofDay day
  have hfirst : daysFromCivil (ofDay day).year (ofDay day).month (ofDay day).day =
      daysFromCivil (ofDay day).year (ofDay day).month 1 + (ofDay day).day - 1 := by
    rw [daysFromCivil_eq, daysFromCivil_eq]
    omega
  have hlow := hvalid.day_pos
  have hhigh := hvalid.day_le
  have hnext : monthIndex day + 1 = 12 * (ofDay day).year + (ofDay day).month := by
    unfold monthIndex
    omega
  rw [hnext, monthFirst_succ _ hvalid.month_pos hvalid.month_le, monthIndex,
    monthFirst_of hvalid.month_pos hvalid.month_le]
  omega

theorem monthFirst_lt (k : Int) : monthFirst k < monthFirst (k + 1) := by
  obtain ⟨year, month, hk, h1, h12⟩ : ∃ year month : Int,
      k = 12 * year + month - 1 ∧ 1 ≤ month ∧ month ≤ 12 :=
    ⟨k / 12, k % 12 + 1, by omega, by omega, by omega⟩
  have hlen := Lib.Calendar.daysInMonth_ge year month
  rw [hk, Int.sub_add_cancel, monthFirst_succ year h1 h12, monthFirst_of h1 h12]
  omega

theorem monthFirst_mono {k l : Int} (h : k ≤ l) : monthFirst k ≤ monthFirst l := by
  obtain ⟨n, rfl⟩ := Int.le.dest h
  induction n with
  | zero => simp
  | succ n ih =>
      have hstep := monthFirst_lt (k + n)
      have hle := ih (by omega)
      have hsucc : k + ((n + 1 : Nat) : Int) = k + n + 1 := by omega
      rw [hsucc]
      omega

theorem monthFirst_le_iff {k day : Int} : monthFirst k ≤ day ↔ k ≤ monthIndex day := by
  obtain ⟨hlow, hhigh⟩ := monthIndex_bounds day
  constructor
  · intro h
    by_contra hlt
    have := monthFirst_mono (show monthIndex day + 1 ≤ k by omega)
    omega
  · intro h
    exact (monthFirst_mono h).trans hlow

/-! ## The days of a period -/

def periodDays (operator : TableOperator) (day : Int) : Int × Int :=
  match operator with
  | .thisWeek => (day - sinceMonday day, day - sinceMonday day + 7)
  | .thisMonth => (monthFirst (monthIndex day), monthFirst (monthIndex day + 1))
  | .thisYear => (monthFirst (12 * (ofDay day).year), monthFirst (12 * (ofDay day).year + 12))
  | .last7Days => (day - 6, day + 1)
  | .last30Days => (day - 29, day + 1)
  | _ => (day, day + 1)

section Periods

variable {operator : TableOperator} {zone : Int → Int} {now : Int}

theorem relative_cases (h : relativeDateOperators.contains operator = true) :
    operator = .today ∨ operator = .thisWeek ∨ operator = .thisMonth ∨ operator = .thisYear ∨
      operator = .last7Days ∨ operator = .last30Days := by
  simpa [relativeDateOperators] using h

theorem mem_periodDays (h : relativeDateOperators.contains operator = true) (today day : Int) :
    ((periodDays operator today).1 ≤ day ∧ day < (periodDays operator today).2) ↔
      InPeriod operator today day := by
  have hday := Lib.Calendar.ofDay_valid day
  have htoday := Lib.Calendar.ofDay_valid today
  have hbounds := And.intro (And.intro hday.month_pos hday.month_le)
    (And.intro htoday.month_pos htoday.month_le)
  rcases relative_cases h with rfl | rfl | rfl | rfl | rfl | rfl
  · simp only [periodDays, InPeriod]
    omega
  · simp only [periodDays, InPeriod, sinceMonday]
    omega
  · simp only [periodDays, InPeriod]
    rw [← Int.not_le (a := monthFirst (monthIndex today + 1)), monthFirst_le_iff,
      monthFirst_le_iff]
    unfold monthIndex
    omega
  · simp only [periodDays, InPeriod]
    rw [← Int.not_le (a := monthFirst _), monthFirst_le_iff, monthFirst_le_iff]
    unfold monthIndex
    omega
  · simp only [periodDays, InPeriod]
    omega
  · simp only [periodDays, InPeriod]
    omega

theorem inPeriod_self (h : relativeDateOperators.contains operator = true) (day : Int) :
    InPeriod operator day day := by
  rcases relative_cases h with rfl | rfl | rfl | rfl | rfl | rfl <;> simp [InPeriod]

theorem shanghaiDayStart_le {first t : Int} :
    shanghaiDayStart first ≤ t ↔ first ≤ shanghaiDay t := by
  unfold shanghaiDayStart shanghaiDay dayMs zoneMs
  omega

theorem lt_shanghaiDayStart {last t : Int} : t < shanghaiDayStart last ↔ shanghaiDay t < last := by
  unfold shanghaiDayStart shanghaiDay dayMs zoneMs
  omega

theorem shanghaiDay_start : shanghaiDay (shanghaiDayStart day) = day := by
  unfold shanghaiDayStart shanghaiDay dayMs zoneMs
  omega

theorem periodRange_iff (h : relativeDateOperators.contains operator = true) (today : Int) :
    PeriodRange operator now (shanghaiDayStart (periodDays operator today).1)
        (shanghaiDayStart (periodDays operator today).2) ↔
      ∀ day, InPeriod operator today day ↔ InPeriod operator (shanghaiDay now) day := by
  have hmem : ∀ t, (shanghaiDayStart (periodDays operator today).1 ≤ t ∧
      t < shanghaiDayStart (periodDays operator today).2) ↔
        InPeriod operator today (shanghaiDay t) := by
    intro t
    rw [shanghaiDayStart_le, lt_shanghaiDayStart]
    exact mem_periodDays h today _
  constructor
  · intro hrange day
    have hday := hrange.exact (shanghaiDayStart day)
    rw [hmem, shanghaiDay_start] at hday
    exact hday
  · intro hsame
    refine ⟨⟨_, _, rfl, rfl⟩, ?_, fun t => (hmem t).trans (hsame _)⟩
    exact (hmem now).mpr ((hsame _).mpr (inPeriod_self h _))

/-! ## When the range is right -/

theorem leadingFour_of_lt {n : Nat} (h : n < 10000) : leadingFour n = n := by
  rw [leadingFour, if_pos h]

theorem sliceYear_of {year : Int} (h1 : 1000 ≤ year) (h9 : year ≤ 9999) :
    sliceYear year = some year := by
  rw [sliceYear, if_neg (by omega), leadingFour_of_lt (by omega)]
  simp
  omega

theorem dayStart_of {year month day : Int} (h1 : 1000 ≤ year) (h9 : year ≤ 9999) :
    dayStart year month day = some (shanghaiDayStart (daysFromCivil year month day)) :=
  if_pos ⟨h1, h9⟩

theorem dayStart_eq_some {year month day t : Int} (h : dayStart year month day = some t) :
    1000 ≤ year ∧ year ≤ 9999 ∧ t = shanghaiDayStart (daysFromCivil year month day) := by
  unfold dayStart at h
  split at h
  · rename_i hyear
    exact ⟨hyear.1, hyear.2, (Option.some.inj h).symm⟩
  · cases h

theorem civilFromDays_eq : civilFromDays day = ((ofDay day).year, (ofDay day).month) := by
  have hera : ∀ z : Int, z - z / 146097 * 146097 = z % 146097 := by omega
  rw [ofDay, Lib.Calendar.dayOfYear_eq]
  unfold civilFromDays
  simp only [hera]
  rfl

theorem fixedRange_eq (h : relativeDateOperators.contains operator = true) :
    TableQuery.relativeDateRange operator now =
      .ok (shanghaiDayStart (periodDays operator (shanghaiDay now)).1,
        shanghaiDayStart (periodDays operator (shanghaiDay now)).2) := by
  have hvalid := Lib.Calendar.ofDay_valid (shanghaiDay now)
  have hpos := hvalid.month_pos
  have hle := hvalid.month_le
  unfold TableQuery.relativeDateRange
  simp only [civilFromDays_eq]
  generalize shanghaiDay now = today at *
  have hjanuary : ∀ year : Int, daysFromCivil year 1 1 = monthFirst (12 * year) := by
    intro year
    rw [← monthFirst_of (by omega) (by omega), Int.add_sub_cancel]
  rcases relative_cases h with rfl | rfl | rfl | rfl | rfl | rfl
  · simp [periodDays, shanghaiDayStart, nextDay, dayMs]
    omega
  · simp [periodDays, shanghaiDayStart, sinceMonday, dayMs]
    omega
  · have hindex : monthIndex today + 1 = 12 * (ofDay today).year + (ofDay today).month := by
      unfold monthIndex
      omega
    simp only [periodDays, hindex]
    rw [monthIndex, monthFirst_of hpos hle]
    by_cases htwelve : (ofDay today).month = 12
    · rw [if_pos htwelve, hjanuary, htwelve, Int.mul_add]
      rfl
    · have hafter : 12 * (ofDay today).year + (ofDay today).month =
          12 * (ofDay today).year + ((ofDay today).month + 1) - 1 := by omega
      rw [if_neg htwelve, hafter, monthFirst_of (by omega) (by omega)]
  · simp only [periodDays, hjanuary, Int.mul_add]
    rfl
  · simp [periodDays, shanghaiDayStart, nextDay, dayMs]
    omega
  · simp [periodDays, shanghaiDayStart, nextDay, dayMs]
    omega

theorem relativeDateRange_eq (h : relativeDateOperators.contains operator = true)
    (hyear : FourDigits operator (zoneDay zone now)) :
    relativeDateRange zone operator now =
      (TableQuery.relativeDateRange operator (shanghaiDayStart (zoneDay zone now))).map
        fun range => (some range.1, some range.2) := by
  obtain ⟨h1, h9, hlast, hdecember⟩ := hyear
  have hwritten : formatShanghaiDate zone now = ⟨(ofDay (zoneDay zone now)).year,
      (ofDay (zoneDay zone now)).month, (ofDay (zoneDay zone now)).day⟩ := by
    unfold formatShanghaiDate
    rw [← zoneDay]
    simp only [if_pos (show 1 ≤ (ofDay (zoneDay zone now)).year by omega)]
  unfold relativeDateRange TableQuery.relativeDateRange
  simp only [hwritten, civilFromDays_eq, shanghaiDay_start, dayStart_of h1 h9, sliceYear_of h1 h9,
    daysFromCivil_ofDay, Option.bind_some]
  rcases relative_cases h with rfl | rfl | rfl | rfl | rfl | rfl
  · rfl
  · rfl
  · simp only [Except.map]
    split
    · rename_i htwelve
      have hyear : (ofDay (zoneDay zone now)).year + 1 ≤ 9999 := by
        have := hdecember rfl
        omega
      rw [dayStart_of (by omega) hyear]
    · rfl
  · have hyear := hlast rfl
    rw [dayStart_of (by omega) (by omega)]
    rfl
  · rfl
  · rfl

theorem monthFirst_le_daysFromCivil {year month day : Int} (hyear : 1000 ≤ year) (h1 : 1 ≤ month)
    (h12 : month ≤ 12) (hday : 1 ≤ day) : monthFirst 12000 ≤ daysFromCivil year month day := by
  have hmono := monthFirst_mono (show 12000 ≤ 12 * year + month - 1 by omega)
  rw [monthFirst_of h1 h12, daysFromCivil_eq] at hmono
  rw [daysFromCivil_eq]
  omega

theorem le_of_range {gte lt : Int} (h : relativeDateRange zone operator now =
    .ok (some gte, some lt)) : shanghaiDayStart (monthFirst 12000 - 29) ≤ gte := by
  have hvalid := Lib.Calendar.ofDay_valid ((now + zone now) / dayMs)
  have hle : ∀ {year month day k t : Int}, dayStart year month day = some t → 1 ≤ month →
      month ≤ 12 → 1 ≤ day → k ≤ 29 → shanghaiDayStart (monthFirst 12000 - 29) ≤ t - k * dayMs := by
    intro year month day k t hstart h1 h12 hday hk
    obtain ⟨hyear, -, rfl⟩ := dayStart_eq_some hstart
    have := monthFirst_le_daysFromCivil hyear h1 h12 hday
    unfold shanghaiDayStart dayMs
    omega
  have hstart : ∀ {k t : Int}, dayStart (formatShanghaiDate zone now).year
      (formatShanghaiDate zone now).month (formatShanghaiDate zone now).day = some t → k ≤ 29 →
      shanghaiDayStart (monthFirst 12000 - 29) ≤ t - k * dayMs :=
    fun ht hk => hle ht hvalid.month_pos hvalid.month_le hvalid.day_pos hk
  cases operator <;>
    simp only [relativeDateRange, Except.ok.injEq, Prod.mk.injEq, Option.map_eq_some_iff,
      reduceCtorEq] at h
  · simpa using hstart (k := 0) h.1 (by omega)
  · obtain ⟨⟨t, ht, rfl⟩, -⟩ := h
    exact hstart ht (by omega)
  · simpa using hle (k := 0) h.1 hvalid.month_pos hvalid.month_le (by omega) (by omega)
  · obtain ⟨year, -, hyear⟩ := Option.bind_eq_some_iff.mp h.1
    simpa using hle (k := 0) hyear (by omega) (by omega) (by omega) (by omega)
  · obtain ⟨⟨t, ht, rfl⟩, -⟩ := h
    exact hstart ht (by omega)
  · obtain ⟨⟨t, ht, rfl⟩, -⟩ := h
    exact hstart ht (by omega)

theorem fourDigits_of_range (hzone : -dayMs ≤ zone now ∧ zone now ≤ dayMs) {gte lt : Int}
    (h : relativeDateRange zone operator now = .ok (some gte, some lt))
    (hnow : gte ≤ now ∧ now < lt) : FourDigits operator (zoneDay zone now) := by
  have hnear : shanghaiDay now ≤ zoneDay zone now + 2 ∧
      zoneDay zone now ≤ shanghaiDay now + 2 := by
    unfold shanghaiDay zoneDay dayMs zoneMs at *
    omega
  have hvalid := Lib.Calendar.ofDay_valid (zoneDay zone now)
  have hmonth := And.intro hvalid.month_pos hvalid.month_le
  have hindex : monthIndex (zoneDay zone now) =
      12 * (ofDay (zoneDay zone now)).year + (ofDay (zoneDay zone now)).month - 1 := rfl
  have hpos : 1 ≤ (ofDay (zoneDay zone now)).year := by
    by_contra hneg
    have hday := shanghaiDayStart_le.mp ((le_of_range h).trans hnow.1)
    have hbefore : ¬ monthFirst 12 ≤ zoneDay zone now := by
      rw [monthFirst_le_iff]
      omega
    have hgap : monthFirst 12 + 100 < monthFirst 12000 := by decide
    omega
  have hwritten : (formatShanghaiDate zone now).year = (ofDay (zoneDay zone now)).year ∧
      (formatShanghaiDate zone now).month = (ofDay (zoneDay zone now)).month := by
    unfold formatShanghaiDate
    rw [← zoneDay]
    exact ⟨if_pos hpos, rfl⟩
  have hstart : ∀ {month day t : Int}, dayStart (formatShanghaiDate zone now).year month day =
      some t → 1000 ≤ (ofDay (zoneDay zone now)).year ∧ (ofDay (zoneDay zone now)).year ≤ 9999 := by
    intro month day t ht
    obtain ⟨h1, h9, -⟩ := dayStart_eq_some ht
    rw [hwritten.1] at h1 h9
    exact ⟨h1, h9⟩
  have hplain : operator ≠ .thisYear → operator ≠ .thisMonth →
      1000 ≤ (ofDay (zoneDay zone now)).year ∧ (ofDay (zoneDay zone now)).year ≤ 9999 →
      FourDigits operator (zoneDay zone now) := fun hy hm hyear =>
    ⟨hyear.1, hyear.2, fun he => absurd he hy, fun he => absurd he hm⟩
  cases operator <;>
    simp only [relativeDateRange, Except.ok.injEq, Prod.mk.injEq, Option.map_eq_some_iff,
      reduceCtorEq] at h
  · exact hplain (by simp) (by simp) (hstart h.1)
  · obtain ⟨⟨t, ht, -⟩, -⟩ := h
    exact hplain (by simp) (by simp) (hstart ht)
  · have hyear := hstart h.1
    refine ⟨hyear.1, hyear.2, (fun he => by cases he), fun _ hend => ?_⟩
    obtain ⟨hfirst, hnext⟩ := h
    rw [hwritten.1, hwritten.2, sliceYear_of hyear.1 hyear.2, Option.bind_some,
      if_pos hend.2] at hnext
    have := dayStart_eq_some hnext
    omega
  · obtain ⟨hfirst, hnext⟩ := h
    have hfour : (ofDay (zoneDay zone now)).year ≤ 9999 := by
      by_contra hlong
      obtain ⟨year, hslice, hlt⟩ := Option.bind_eq_some_iff.mp hnext
      obtain ⟨-, hyear, rfl⟩ := dayStart_eq_some hlt
      have hday := lt_shanghaiDayStart.mp hnow.2
      have hone : 12 * (year + 1) = 12 * (year + 1) + 1 - 1 := by omega
      have hmono := monthFirst_mono (show 12 * (year + 1) ≤ 119988 by omega)
      rw [hone, monthFirst_of (by omega) (by omega)] at hmono
      have hafter : monthFirst 120000 ≤ zoneDay zone now := by
        rw [monthFirst_le_iff]
        omega
      have hgap : monthFirst 119988 + 100 < monthFirst 120000 := by decide
      omega
    have hthousand : 1000 ≤ (ofDay (zoneDay zone now)).year := by
      by_contra hshort
      rw [hwritten.1, sliceYear, if_pos (by omega)] at hfirst
      cases hfirst
    refine ⟨hthousand, hfour, fun _ hend => ?_, (fun he => by cases he)⟩
    rw [hwritten.1, sliceYear_of hthousand hfour, Option.bind_some] at hnext
    have := dayStart_eq_some hnext
    omega
  · obtain ⟨⟨t, ht, -⟩, -⟩ := h
    exact hplain (by simp) (by simp) (hstart ht)
  · obtain ⟨⟨t, ht, -⟩, -⟩ := h
    exact hplain (by simp) (by simp) (hstart ht)

end Periods

/-- The range is that of the current period exactly when the zone shows a day of the same period
and the years written have four digits. -/
theorem relativeDateRange_iff (zone : Int → Int)
    (hzone : ∀ t, -dayMs ≤ zone t ∧ zone t ≤ dayMs) (operator : TableOperator)
    (h : relativeDateOperators.contains operator = true) (now : Int) :
    (∃ gte lt, relativeDateRange zone operator now = .ok (some gte, some lt) ∧
        PeriodRange operator now gte lt) ↔
      FourDigits operator (zoneDay zone now) ∧
        ∀ day, InPeriod operator (zoneDay zone now) day ↔
          InPeriod operator (shanghaiDay now) day := by
  constructor
  · intro ⟨gte, lt, hrun, hrange⟩
    have hfour := fourDigits_of_range (hzone now) hrun hrange.contains_now
    rw [relativeDateRange_eq h hfour, fixedRange_eq h, shanghaiDay_start] at hrun
    simp only [Except.map, Except.ok.injEq, Prod.mk.injEq, Option.some.injEq] at hrun
    obtain ⟨rfl, rfl⟩ := hrun
    exact ⟨hfour, (periodRange_iff h _).mp hrange⟩
  · intro ⟨hfour, hsame⟩
    rw [relativeDateRange_eq h hfour, fixedRange_eq h, shanghaiDay_start]
    exact ⟨_, _, rfl, (periodRange_iff h _).mpr hsame⟩

/-- The zone with its last summer time, from April to September 1991. -/
def shanghaiZone (t : Int) : Int :=
  if 671565600000 ≤ t ∧ t < 684867600000 then 9 * 60 * 60 * 1000 else zoneMs

theorem shanghaiZone_bounds (t : Int) : -dayMs ≤ shanghaiZone t ∧ shanghaiZone t ≤ dayMs := by
  unfold shanghaiZone dayMs zoneMs
  split <;> decide

/-- A day in February of a leap year. -/
theorem relativeDateRange_iff_leap :
    ∃ gte lt, relativeDateRange shanghaiZone .thisMonth 1709222400000 =
      .ok (some gte, some lt) ∧ PeriodRange .thisMonth 1709222400000 gte lt :=
  (relativeDateRange_iff shanghaiZone shanghaiZone_bounds .thisMonth rfl 1709222400000).mpr
    ⟨by unfold FourDigits; decide, fun _ => Iff.rfl⟩

/-- Half an hour before midnight in a summer with summer time the range is tomorrow. -/
theorem not_periodRange_summer :
    ¬ ∃ gte lt, relativeDateRange shanghaiZone .today 678382200000 = .ok (some gte, some lt) ∧
      PeriodRange .today 678382200000 gte lt := by
  intro ⟨gte, lt, hrun, hrange⟩
  have hstart : relativeDateRange shanghaiZone .today 678382200000 =
      .ok (some 678384000000, some 678470400000) := by decide
  rw [hstart] at hrun
  simp only [Except.ok.injEq, Prod.mk.injEq, Option.some.injEq] at hrun
  have := hrange.contains_now
  omega

end Wbme.TableQuery.RelativeDates

import Wbme.Lib.Calendar
import Wbme.Asset.QuotaPeriod

/-! # Quota cycles

The cycles of a quota are numbered: the number rises by one at every reset boundary and stays
in between, and the cycle key is a faithful name of the number.
-/

namespace Wbme.Asset

open Lib

def QuotaCycle.startsIn (cycle : QuotaCycle) (month : Int) : Bool :=
  match cycle with
  | .month => true
  | .quarter => month = 1 ∨ month = 4 ∨ month = 7 ∨ month = 10
  | .year => month = 1

structure IsResetBoundary (cycle : QuotaCycle) (resetDay : Nat) (ms : Int) : Prop where
  midnight : (ms + bjOffsetMs) % msPerDay = 0
  day : (utcDate (ms + bjOffsetMs)).day = resetDay
  month : cycle.startsIn (utcDate (ms + bjOffsetMs)).month = true

/-! ## The number of a cycle -/

def CivilDate.ofCalendar (d : Calendar.Date) : CivilDate :=
  { year := d.year, month := d.month, day := d.day }

theorem utcDate_eq (ms : Int) : utcDate ms = .ofCalendar (Calendar.ofDay (ms / msPerDay)) := by
  rw [Calendar.ofDay, Calendar.dayOfYear_eq]
  rfl

example : utcDate 0 = ⟨1970, 1, 1⟩ := by decide

/-- Dates before the reset day of the month in which a cycle starts are of the cycle before. -/
def cycleNumber (cycle : QuotaCycle) (resetDay : Nat) (d : Calendar.Date) : Int :=
  let before := if d.day < resetDay ∧ cycle.startsIn d.month = true then 1 else 0
  match cycle with
  | .month => 12 * d.year + (d.month - 1) - before
  | .quarter => 4 * d.year + (d.month - 1) / 3 - before
  | .year => d.year - before

def cycleName (cycle : QuotaCycle) (number : Int) : String :=
  match cycle with
  | .month => s!"{number / 12}-{padTwo (number % 12 + 1)}"
  | .quarter => s!"{number / 4}-Q{number % 4 + 1}"
  | .year => s!"{number}"

def startsCycle (cycle : QuotaCycle) (resetDay : Nat) (d : Calendar.Date) : Bool :=
  d.day = resetDay ∧ cycle.startsIn d.month = true

variable (month : Int)

@[simp] theorem startsIn_month : QuotaCycle.month.startsIn month = true := rfl

@[simp] theorem startsIn_quarter :
    QuotaCycle.quarter.startsIn month = true ↔
      month = 1 ∨ month = 4 ∨ month = 7 ∨ month = 10 := by
  simp [QuotaCycle.startsIn]

@[simp] theorem startsIn_year : QuotaCycle.year.startsIn month = true ↔ month = 1 := by
  simp [QuotaCycle.startsIn]

variable {cycle : QuotaCycle} {resetDay : Nat}

theorem cycleNumber_next (hpos : 1 ≤ resetDay) (hle : resetDay ≤ 28) {d : Calendar.Date}
    (hd : d.Valid) :
    cycleNumber cycle resetDay d.next = cycleNumber cycle resetDay d +
      if startsCycle cycle resetDay d.next then 1 else 0 := by
  have hm1 := hd.month_pos
  have hm2 := hd.month_le
  have hd1 := hd.day_pos
  by_cases hlt : d.day < Calendar.daysInMonth d.year d.month
  · rw [Calendar.Date.next_of_lt hlt]
    cases cycle <;> simp only [cycleNumber, startsCycle, startsIn_month, startsIn_quarter,
      startsIn_year, decide_eq_true_eq, and_true] <;> split <;> split <;> split <;> omega
  · -- the last day of a month is not before the reset day
    have hlast : ¬ d.day < resetDay := by
      have := Calendar.daysInMonth_ge d.year d.month
      omega
    rw [Calendar.Date.next_of_last hlt]
    by_cases hyear : d.month < 12
    · rw [if_pos hyear]
      cases cycle <;> simp only [cycleNumber, startsCycle, startsIn_month, startsIn_quarter,
        startsIn_year, decide_eq_true_eq, and_true, hlast, false_and, if_false] <;> split <;>
        split <;> omega
    · rw [if_neg hyear]
      have hdec : d.month = 12 := by omega
      cases cycle <;> simp only [cycleNumber, startsCycle, startsIn_month, startsIn_quarter,
        startsIn_year, decide_eq_true_eq, and_true, eq_self, true_or, hlast, hdec, false_and,
        if_false] <;> split <;> split <;> omega

/-- Over any number of days the number grows, and it stays exactly when no day of them begins a
cycle. -/
theorem cycleNumber_add {cycle : QuotaCycle} {resetDay : Nat} (hpos : 1 ≤ resetDay)
    (hle : resetDay ≤ 28) (day : Int) (n : Nat) :
    cycleNumber cycle resetDay (Calendar.ofDay day) ≤
        cycleNumber cycle resetDay (Calendar.ofDay (day + n)) ∧
      (cycleNumber cycle resetDay (Calendar.ofDay day) =
          cycleNumber cycle resetDay (Calendar.ofDay (day + n)) ↔
        ∀ later, day < later → later ≤ day + n →
          startsCycle cycle resetDay (Calendar.ofDay later) = false) := by
  induction n with
  | zero =>
      simp
      omega
  | succ n ih =>
      obtain ⟨ihle, iheq⟩ := ih
      have hstep := @cycleNumber_next cycle resetDay hpos hle _ (Calendar.ofDay_valid (day + n))
      rw [← Calendar.ofDay_succ] at hstep
      have hday : day + ((n + 1 : Nat) : Int) = day + n + 1 := by omega
      rw [hday, hstep]
      constructor
      · split <;> omega
      constructor
      · intro heq later hl hu
        by_cases hlast : later = day + n + 1
        · subst hlast
          by_contra hstarts
          rw [Bool.not_eq_false] at hstarts
          rw [if_pos hstarts] at heq
          omega
        · apply iheq.mp _ later hl (by omega)
          split at heq <;> omega
      · intro hnone
        have hlast := hnone (day + n + 1) (by omega) (by omega)
        rw [hlast]
        have hprev := iheq.mpr fun later hl hu => hnone later hl (by omega)
        simp [hprev]

/-! ## The key names the number -/

theorem cycleName_month (year month : Int) {number : Int} (h1 : 1 ≤ month) (h12 : month ≤ 12)
    (h : number = 12 * year + (month - 1)) :
    cycleName .month number = s!"{year}-{padTwo month}" := by
  have hyear : number / 12 = year := by omega
  have hmonth : number % 12 + 1 = month := by omega
  rw [cycleName, hyear, hmonth]

theorem cycleName_quarter (year quarter : Int) {number : Int} (h1 : 1 ≤ quarter) (h4 : quarter ≤ 4)
    (h : number = 4 * year + (quarter - 1)) :
    cycleName .quarter number = s!"{year}-Q{quarter}" := by
  have hyear : number / 4 = year := by omega
  have hquarter : number % 4 + 1 = quarter := by omega
  rw [cycleName, hyear, hquarter]

theorem computeCycleKey_eq (now : Int) (cycle : QuotaCycle) (resetDay : Nat) :
    computeCycleKey now cycle resetDay =
      cycleName cycle
        (cycleNumber cycle resetDay (Calendar.ofDay ((now + bjOffsetMs) / msPerDay))) := by
  have hd := Calendar.ofDay_valid ((now + bjOffsetMs) / msPerDay)
  unfold computeCycleKey
  rw [utcDate_eq]
  generalize Calendar.ofDay ((now + bjOffsetMs) / msPerDay) = d at hd
  have hm1 := hd.month_pos
  have hm2 := hd.month_le
  have hyear : (CivilDate.ofCalendar d).year = d.year := rfl
  have hmonth : (CivilDate.ofCalendar d).month = d.month := rfl
  have hdate : (CivilDate.ofCalendar d).day = d.day := rfl
  generalize CivilDate.ofCalendar d = bj at hyear hmonth hdate
  rw [← hmonth] at hm1 hm2
  simp only [cycleNumber, ← hyear, ← hmonth, ← hdate]
  cases cycle with
  | month =>
      simp only [startsIn_month, and_true]
      by_cases hday : bj.day < resetDay
      · rw [if_pos hday, if_pos hday]
        by_cases hjan : bj.month = 1
        · rw [if_pos hjan, cycleName_month (bj.year - 1) 12 (by omega) (by omega) (by omega),
            String.append_assoc]
          rfl
        · rw [if_neg hjan, cycleName_month bj.year (bj.month - 1) (by omega) (by omega)
            (by omega)]
      · rw [if_neg hday, if_neg hday, cycleName_month bj.year bj.month hm1 hm2 (by omega)]
  | quarter =>
      simp only [startsIn_quarter]
      have hfirst : (bj.day < resetDay ∧ bj.month = (bj.month - 1) / 3 * 3 + 1) ↔
          bj.day < resetDay ∧ (bj.month = 1 ∨ bj.month = 4 ∨ bj.month = 7 ∨ bj.month = 10) := by
        constructor
        · intro h
          exact ⟨h.1, by omega⟩
        · intro h
          exact ⟨h.1, by omega⟩
      by_cases hday : bj.day < resetDay ∧
          (bj.month = 1 ∨ bj.month = 4 ∨ bj.month = 7 ∨ bj.month = 10)
      · rw [if_pos (hfirst.mpr hday), if_pos hday]
        by_cases hjan : (bj.month - 1) / 3 * 3 + 1 = 1
        · rw [if_pos hjan, cycleName_quarter (bj.year - 1) 4 (by omega) (by omega) (by omega),
            String.append_assoc]
          rfl
        · rw [if_neg hjan, cycleName_quarter bj.year (((bj.month - 1) / 3 * 3 + 1 - 3 + 2) / 3)
            (by omega) (by omega) (by omega)]
      · rw [if_neg fun h => hday (hfirst.mp h), if_neg hday,
          cycleName_quarter bj.year (((bj.month - 1) / 3 * 3 + 1 + 2) / 3) (by omega) (by omega)
            (by omega)]
  | year =>
      simp only [startsIn_year]
      by_cases hday : bj.day < resetDay ∧ bj.month = 1
      · rw [if_pos hday, if_pos hday]
        rfl
      · rw [if_neg hday, if_neg hday, Int.sub_zero]
        rfl

theorem part_texts :
    (∀ a b : Fin 12, padTwo ((a : Nat) + 1) = padTwo ((b : Nat) + 1) → a = b) ∧
    (∀ a : Fin 12, (padTwo ((a : Nat) + 1)).toList.length = 2) ∧
    (∀ a b : Fin 4, toString ((a : Nat) + 1 : Int) = toString ((b : Nat) + 1 : Int) → a = b) ∧
    (∀ a : Fin 4, (toString ((a : Nat) + 1 : Int)).toList.length = 1) := by
  decide +kernel

theorem numbered_inj {m n : Int} {sep a b : String} (hlen : a.toList.length = b.toList.length)
    (h : toString m ++ sep ++ a = toString n ++ sep ++ b) : m = n ∧ a = b := by
  have hlist := congrArg String.toList h
  simp only [String.toList_append, List.append_assoc] at hlist
  have htail := List.append_inj_right' hlist (by simp [hlen])
  have hhead := List.append_inj_left' hlist (by simp [hlen])
  constructor
  · exact Int.repr_injective (String.toList_injective hhead)
  · exact String.toList_injective (List.append_cancel_left htail)

theorem cycleName_injective (cycle : QuotaCycle) : Function.Injective (cycleName cycle) := by
  intro a b h
  obtain ⟨padTwo_months, padTwo_length, quarter_texts, quarter_length⟩ := part_texts
  cases cycle with
  | month =>
      obtain ⟨i, hi⟩ := Int.eq_ofNat_of_zero_le (show 0 ≤ a % 12 by omega)
      obtain ⟨j, hj⟩ := Int.eq_ofNat_of_zero_le (show 0 ≤ b % 12 by omega)
      simp only [cycleName, hi, hj] at h
      have hlen := (padTwo_length ⟨i, by omega⟩).trans (padTwo_length ⟨j, by omega⟩).symm
      obtain ⟨hyear, hpad⟩ := numbered_inj hlen h
      have hmonth := congrArg Fin.val (padTwo_months ⟨i, by omega⟩ ⟨j, by omega⟩ hpad)
      dsimp only at hmonth
      omega
  | quarter =>
      obtain ⟨i, hi⟩ := Int.eq_ofNat_of_zero_le (show 0 ≤ a % 4 by omega)
      obtain ⟨j, hj⟩ := Int.eq_ofNat_of_zero_le (show 0 ≤ b % 4 by omega)
      simp only [cycleName, hi, hj] at h
      have hlen := (quarter_length ⟨i, by omega⟩).trans (quarter_length ⟨j, by omega⟩).symm
      obtain ⟨hyear, htext⟩ := numbered_inj hlen h
      have hquarter := congrArg Fin.val (quarter_texts ⟨i, by omega⟩ ⟨j, by omega⟩ htext)
      dsimp only at hquarter
      omega
  | year => exact Int.repr_injective h

/-! ## Equal keys -/

theorem isResetBoundary_iff {ms : Int} :
    IsResetBoundary cycle resetDay ms ↔
      (ms + bjOffsetMs) % msPerDay = 0 ∧
        startsCycle cycle resetDay (Calendar.ofDay ((ms + bjOffsetMs) / msPerDay)) = true := by
  constructor
  · intro h
    have hday := h.day
    have hmonth := h.month
    rw [utcDate_eq] at hday hmonth
    exact ⟨h.midnight, decide_eq_true ⟨hday, hmonth⟩⟩
  · intro h
    obtain ⟨hday, hmonth⟩ := of_decide_eq_true h.2
    exact {
      midnight := h.1
      day := by rw [utcDate_eq]; exact hday
      month := by rw [utcDate_eq]; exact hmonth
    }

/-- Of two instants in order: the keys are equal exactly when no boundary comes after the
first and not after the second. -/
theorem computeCycleKey_eq_iff_of_le (hpos : 1 ≤ resetDay) (hle : resetDay ≤ 28)
    {first second : Int} (horder : first ≤ second) :
    computeCycleKey first cycle resetDay = computeCycleKey second cycle resetDay ↔
      ∀ boundary, first < boundary → boundary ≤ second →
        ¬ IsResetBoundary cycle resetDay boundary := by
  rw [computeCycleKey_eq, computeCycleKey_eq, (cycleName_injective cycle).eq_iff]
  have hdays : (first + bjOffsetMs) / msPerDay ≤ (second + bjOffsetMs) / msPerDay := by
    unfold bjOffsetMs msPerDay
    omega
  obtain ⟨n, hn⟩ := Int.le.dest hdays
  rw [← hn, (cycleNumber_add hpos hle _ n).2]
  constructor
  · intro hnone boundary hl hu hbound
    obtain ⟨hmid, hstart⟩ := isResetBoundary_iff.mp hbound
    have hday := hnone ((boundary + bjOffsetMs) / msPerDay)
      (by unfold bjOffsetMs msPerDay at *; omega) (by unfold bjOffsetMs msPerDay at *; omega)
    rw [hday] at hstart
    cases hstart
  · intro hnone day hl hu
    -- the midnight at which the day begins
    have hmid := hnone (day * msPerDay - bjOffsetMs)
      (by unfold bjOffsetMs msPerDay at *; omega) (by unfold bjOffsetMs msPerDay at *; omega)
    rw [isResetBoundary_iff, show day * msPerDay - bjOffsetMs + bjOffsetMs = day * msPerDay by
      omega, Int.mul_emod_left, Int.mul_ediv_cancel _ (by decide)] at hmid
    simpa using hmid

/-- Two instants have the same key exactly when no boundary lies between them, and an instant
from a boundary on never has the key of an instant before it. -/
theorem computeCycleKey_eq_iff {cycle : QuotaCycle} {resetDay : Nat}
    (hpos : 1 ≤ resetDay) (hle : resetDay ≤ 28) :
    (∀ first second : Int,
      computeCycleKey first cycle resetDay = computeCycleKey second cycle resetDay ↔
        ∀ boundary, min first second < boundary → boundary ≤ max first second →
          ¬ IsResetBoundary cycle resetDay boundary) ∧
      ∀ boundary, IsResetBoundary cycle resetDay boundary → ∀ earlier later : Int,
        earlier < boundary → boundary ≤ later →
          computeCycleKey later cycle resetDay ≠ computeCycleKey earlier cycle resetDay := by
  constructor
  · intro first second
    rcases Int.le_total first second with horder | horder
    · rw [Int.min_eq_left horder, Int.max_eq_right horder]
      exact computeCycleKey_eq_iff_of_le hpos hle horder
    · rw [Int.min_eq_right horder, Int.max_eq_left horder, eq_comm]
      exact computeCycleKey_eq_iff_of_le hpos hle horder
  · intro boundary hbound earlier later hl hu heq
    have hnone := (@computeCycleKey_eq_iff_of_le cycle resetDay hpos hle _ _
      (show earlier ≤ later by omega)).mp heq.symm
    exact hnone boundary hl hu hbound

/-- One second before and at Beijing midnight of 15 July 2026, the reset day of a month. -/
theorem computeCycleKey_across_reset :
    computeCycleKey 1784044799000 .month 15 = "2026-06" ∧
      computeCycleKey 1784044800000 .month 15 = "2026-07" ∧
      computeCycleKey 1784044800000 .month 15 ≠ computeCycleKey 1784044799000 .month 15 := by
  have hbound : IsResetBoundary .month 15 1784044800000 :=
    { midnight := by decide, day := by decide, month := by decide }
  have hne := (@computeCycleKey_eq_iff .month 15 (by decide) (by decide)).2 1784044800000 hbound 1784044799000 1784044800000 (by decide) (by decide)
  exact ⟨by decide +kernel, by decide +kernel, hne⟩

end Wbme.Asset

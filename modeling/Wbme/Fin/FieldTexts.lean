import Wbme.Fin.Fields
import Wbme.Lib.Calendar

/-! # Texts of amounts and dates

An amount and a date are read from the text they are written as. Texts of other forms can
stand for the same value, but no value is written as they are.
-/

namespace Wbme.Fin

/-! ## Digits -/

theorem natOfDigits_toDigits (n : Nat) : natOfDigits (Nat.toDigits 10 n) = n :=
  Nat.ofDigitChars_ten_toDigits

theorem isDigit_of_mem_toDigits {n : Nat} {c : Char} (h : c ∈ Nat.toDigits 10 n) :
    c.isDigit = true :=
  Nat.isDigit_of_mem_toDigits (by decide) (by decide) h

theorem padTwo_digits {n : Nat} (h : n < 100) :
    ∃ c₁ c₂, (padTwo n).toList = [c₁, c₂] ∧ c₁.isDigit = true ∧ c₂.isDigit = true ∧
      natOfDigits [c₁, c₂] = n := by
  have hall : ∀ k : Fin 100,
      (padTwo k).toList = [Nat.digitChar (k / 10), Nat.digitChar (k % 10)] ∧
        (Nat.digitChar (k / 10)).isDigit = true ∧ (Nat.digitChar (k % 10)).isDigit = true ∧
        natOfDigits [Nat.digitChar (k / 10), Nat.digitChar (k % 10)] = k := by
    decide +kernel
  exact ⟨_, _, hall ⟨n, h⟩⟩

theorem takeWhile_append_cons {p : Char → Bool} {xs ys : List Char} {c : Char}
    (hxs : ∀ x ∈ xs, p x = true) (hc : p c = false) :
    (xs ++ c :: ys).takeWhile p = xs ∧ (xs ++ c :: ys).dropWhile p = c :: ys := by
  induction xs with
  | nil => simp [hc]
  | cons x xs ih =>
      have hx := hxs x List.mem_cons_self
      have hrest := ih fun y hy => hxs y (List.mem_cons_of_mem x hy)
      simp [hx, hrest.1, hrest.2]

theorem digit_ne {c d : Char} (hc : c.isDigit = true) (hd : d.isDigit = false) : c ≠ d := by
  intro h
  rw [h, hd] at hc
  cases hc

/-! ## Amounts -/

variable {text : String} {d : Int}

theorem toFixed_toList (h : 0 ≤ d) :
    (Decimal.toFixed d).toList =
      Nat.toDigits 10 (d.natAbs / 100) ++ '.' :: (padTwo (d.natAbs % 100)).toList := by
  have hsign : ¬ d < 0 := by omega
  simp only [Decimal.toFixed, if_neg hsign, String.toList_append, ToString.toString,
    Nat.toList_repr]
  simp

theorem decimalOf_toFixed (h : 0 ≤ d) : decimalOf (Decimal.toFixed d) = d := by
  obtain ⟨c₁, c₂, hpad, -, -, hvalue⟩ :=
    padTwo_digits (show d.natAbs % 100 < 100 from Nat.mod_lt _ (by omega))
  have hpoint := @takeWhile_append_cons (· ≠ '.') (Nat.toDigits 10 (d.natAbs / 100))
    (padTwo (d.natAbs % 100)).toList '.'
    (fun x hx => by simpa using digit_ne (isDigit_of_mem_toDigits hx) (by decide)) (by decide)
  have hsplit : splitPoint (Decimal.toFixed d).toList =
      (Nat.toDigits 10 (d.natAbs / 100), some (padTwo (d.natAbs % 100)).toList) := by
    rw [toFixed_toList h, splitPoint, hpoint.2, hpoint.1]
  simp only [decimalOf, hsplit, natOfDigits_toDigits, Option.getD_some, hpad, List.cons_append,
    List.nil_append, List.take_succ_cons, List.take_zero, hvalue]
  have hparts : (100 * (d.natAbs / 100 : Nat) + (d.natAbs % 100 : Nat) : Int) = d := by omega
  exact hparts

/-- A text of an amount as a decimal is made from it, with a sign or without. -/
def signedDecimalOf (value : String) : Decimal :=
  match value.toList with
  | '-' :: digits => -decimalOf (String.ofList digits)
  | _ => decimalOf value

theorem signedDecimalOf_toFixed (d : Int) : signedDecimalOf (Decimal.toFixed d) = d := by
  by_cases h : d < 0
  · have hpos : ¬ -d < 0 := by omega
    have htext : (Decimal.toFixed d).toList = '-' :: (Decimal.toFixed (-d)).toList := by
      simp only [Decimal.toFixed, if_pos h, if_neg hpos, Int.natAbs_neg, String.toList_append,
        ToString.toString]
      simp
    have hread := decimalOf_toFixed (d := -d) (by omega)
    unfold signedDecimalOf
    split
    · rename_i digits heq
      rw [htext, List.cons.injEq] at heq
      rw [← heq.2, String.ofList_toList, hread]
      exact Int.neg_neg d
    · rename_i hother
      exact absurd htext (hother _)
  · have hdigits := toFixed_toList (d := d) (by omega)
    have hread := decimalOf_toFixed (d := d) (by omega)
    have hhead : ∀ digits, (Decimal.toFixed d).toList ≠ '-' :: digits := by
      intro digits heq
      rw [hdigits] at heq
      have hmem : '-' ∈ Nat.toDigits 10 (d.natAbs / 100) := by
        cases hcases : Nat.toDigits 10 (d.natAbs / 100) with
        | nil => exact absurd hcases Nat.toDigits_ne_nil
        | cons c cs =>
            rw [hcases, List.cons_append, List.cons.injEq] at heq
            rw [heq.1]
            exact List.mem_cons_self
      exact digit_ne (isDigit_of_mem_toDigits hmem) (by decide) rfl
    unfold signedDecimalOf
    split
    · rename_i digits heq
      exact absurd heq (hhead digits)
    · exact hread

theorem toFixed_injective {d e : Int} (h : Decimal.toFixed d = Decimal.toFixed e) : d = e := by
  rw [← signedDecimalOf_toFixed d, h, signedDecimalOf_toFixed]

theorem not_amount_of_neg (h : d < 0) : isNonNegativeAmount (Decimal.toFixed d) = false := by
  obtain ⟨rest, hrest⟩ : ∃ rest, (Decimal.toFixed d).toList = '-' :: rest := by
    simp [Decimal.toFixed, h, ToString.toString]
  have hwhole (cs : List Char) : isWholePart ('-' :: cs) = false := by
    cases cs <;> rfl
  have hsplit : ∃ cs, (splitPoint ('-' :: rest)).1 = '-' :: cs := by
    unfold splitPoint
    split
    · exact ⟨rest, rfl⟩
    · exact ⟨rest.takeWhile (· ≠ '.'), rfl⟩
  obtain ⟨cs, hcs⟩ := hsplit
  rw [isNonNegativeAmount, hrest, hcs, hwhole, Bool.false_and]

theorem toFixed_eq_iff (htext : isNonNegativeAmount text = true) :
    (Decimal.toFixed d) = text ↔ d = decimalOf text ∧ (decimalOf text).toFixed = text := by
  constructor
  · intro h
    have hd : 0 ≤ d := by
      by_contra hneg
      rw [← h, not_amount_of_neg (by omega)] at htext
      cases htext
    have hvalue : decimalOf text = d := by rw [← h, decimalOf_toFixed hd]
    exact ⟨hvalue.symm, by rw [hvalue, h]⟩
  · intro ⟨hd, h⟩
    rw [hd, h]

/-! ## Dates -/

open Lib.Calendar (yearStart marchYear shiftedMonth ofDay dateIn)

theorem civilOfDay_eq (n : Int) :
    civilOfDay n = ((ofDay n).year, (ofDay n).month.toNat, (ofDay n).day.toNat) := by
  rw [ofDay, Lib.Calendar.dayOfYear_eq]
  rfl

theorem yearStart_eq (year : Int) :
    yearStart year =
      year / 400 * 146097 + (year % 400 * 365 + year % 400 / 4 - year % 400 / 100) := by
  unfold yearStart
  omega

theorem dayNumber_dateIn {year doy : Int} (h0 : 0 ≤ doy) (h1 : doy < 366) {k : Nat}
    (hk : (dateIn year doy).year = k) :
    dayNumber k (dateIn year doy).month.toNat (dateIn year doy).day.toNat =
      yearStart year + doy - 719468 := by
  obtain ⟨hm0, hm1, hl, hu⟩ := Lib.Calendar.shiftedMonth_spec h0 h1
  simp only [dateIn] at hk ⊢
  generalize shiftedMonth doy = m at *
  rw [yearStart_eq]
  have hday : ((doy - (153 * m + 2) / 5 + 1).toNat : Int) = doy - (153 * m + 2) / 5 + 1 := by
    omega
  unfold dayNumber
  rw [hday]
  by_cases hm : m < 10
  · have hmonth : ¬ (m + 3).toNat ≤ 2 := by omega
    have hback : ((m + 3).toNat : Int) - 3 = m := by omega
    have hyear : (k : Int) = year := by
      rw [if_pos hm, if_neg (by omega)] at hk
      omega
    simp only [if_pos hm, if_neg hmonth, hyear, hback]
    omega
  · have hmonth : (m - 9).toNat ≤ 2 := by omega
    have hback : ((m - 9).toNat : Int) + 9 = m := by omega
    have hyear : (k : Int) - 1 = year := by
      rw [if_neg hm, if_pos (by omega)] at hk
      omega
    simp only [if_neg hm, if_pos hmonth, hyear, hback]
    omega

theorem civilOfDay_spec (n : Int) :
    ∃ (year : Int) (month day : Nat), civilOfDay n = (year, month, day) ∧ 1 ≤ month ∧
      month ≤ 12 ∧ 1 ≤ day ∧ day ≤ 31 ∧ ∀ k : Nat, year = k → dayNumber k month day = n := by
  have hvalid := Lib.Calendar.ofDay_valid n
  have hlast : Lib.Calendar.daysInMonth (ofDay n).year (ofDay n).month ≤ 31 := by
    unfold Lib.Calendar.daysInMonth
    split
    · split <;> omega
    · split <;> omega
  have hdays := hvalid.day_le
  refine ⟨_, _, _, civilOfDay_eq n, ?_, ?_, ?_, ?_, ?_⟩
  · have := hvalid.month_pos
    omega
  · have := hvalid.month_le
    omega
  · have := hvalid.day_pos
    omega
  · omega
  · intro k hk
    obtain ⟨h0, h1⟩ := Lib.Calendar.dayOfYear_bounds (n + 719468)
    have hlength : Lib.Calendar.yearLength (marchYear (n + 719468)) ≤ 366 := by
      unfold Lib.Calendar.yearLength
      split <;> omega
    have hnumber := dayNumber_dateIn h0 (by omega) hk
    rw [ofDay, hnumber]
    omega

def dayOf (text : String) : Option Int :=
  match dateParts text with
  | none => none
  | some (year, month, day) =>
      if 1 ≤ month ∧ month ≤ 12 ∧ 1 ≤ day ∧ day ≤ 31 then some (dayNumber year month day)
      else none

theorem storeDate_eq_ok {column text : String} {n : Int} :
    storeDate column text = .ok n ↔ dayOf text = some n := by
  unfold storeDate dayOf
  cases dateParts text with
  | none => simp
  | some parts => dsimp only; split <;> simp

theorem dateParts_spec (h : (dateParts text).isSome = true) :
    ∃ ys ms ds, text.toList = ys ++ '-' :: (ms ++ '-' :: ds) ∧ ys.length = 4 ∧ ms.length = 2 ∧
      ds.length = 2 ∧ (∀ c ∈ ys, c.isDigit = true) ∧
      dateParts text = some (natOfDigits ys, natOfDigits ms, natOfDigits ds) := by
  unfold dateParts at h ⊢
  split at h
  · rename_i y₁ y₂ y₃ y₄ m₁ m₂ d₁ d₂ hlist
    split at h
    · rename_i hdigits
      refine ⟨[y₁, y₂, y₃, y₄], [m₁, m₂], [d₁, d₂], hlist, rfl, rfl, rfl, ?_, ?_⟩
      · simp only [List.all_cons, Bool.and_eq_true] at hdigits
        simp [hdigits]
      · exact if_pos hdigits
    · cases h
  · cases h

theorem dayOf_formatCalendarDate {n : Int} (htext : (dateParts text).isSome = true)
    (h : formatCalendarDate n = text) : dayOf text = some n := by
  obtain ⟨year, month, day, hcivil, hm1, hm12, hd1, hd31, hnumber⟩ := civilOfDay_spec n
  obtain ⟨a, b, hmonth, -, -, hmvalue⟩ := padTwo_digits (show month < 100 by omega)
  obtain ⟨c, e, hday, -, -, hdvalue⟩ := padTwo_digits (show day < 100 by omega)
  obtain ⟨ys, ms, ds, hlist, hys, hms, hds, hdigits, hparts⟩ := dateParts_spec htext
  have hformat : text.toList = (toString year).toList ++ '-' :: ([a, b] ++ '-' :: [c, e]) := by
    rw [← h, formatCalendarDate, hcivil, ← hmonth, ← hday]
    simp [ToString.toString]
  -- both texts end in six characters, so that the years are the same texts too
  have hyears : (toString year).toList = ys ∧ [a, b] ++ '-' :: [c, e] = ms ++ '-' :: ds := by
    have hsame := hformat.symm.trans hlist
    have hlength := congrArg List.length hsame
    simp only [List.length_append, List.length_cons, List.length_nil, hys, hms, hds] at hlength
    have hinj := List.append_inj hsame (by omega)
    exact ⟨hinj.1, List.cons.inj hinj.2 |>.2⟩
  obtain ⟨hyear, hrest⟩ := hyears
  have hparts' : [a, b] = ms ∧ '-' :: [c, e] = '-' :: ds :=
    List.append_inj hrest (by simp [hms])
  obtain ⟨rfl, hds'⟩ := hparts'
  obtain ⟨-, rfl⟩ := List.cons.inj hds'
  cases year with
  | ofNat k =>
      have hk : natOfDigits ys = k := by
        rw [← hyear]
        show natOfDigits (Nat.repr k).toList = k
        rw [Nat.toList_repr, natOfDigits_toDigits]
      rw [hk, hmvalue, hdvalue] at hparts
      simp only [dayOf, hparts]
      rw [if_pos ⟨hm1, hm12, hd1, hd31⟩, hnumber k rfl]
  | negSucc k =>
      have hminus : '-' ∈ ys := by
        rw [← hyear]
        simp [ToString.toString, Int.repr]
      exact absurd (hdigits '-' hminus) (by decide)

end Wbme.Fin

import Mathlib.Data.Rat.Defs
import Mathlib.Logic.Function.Basic
import Wbme.Lib.Calendar
import Wbme.Lib.JsonText

/-! # The holiday adapter

The kind of a day is looked up in the cache, asked of the provider, looked up again, and looked
up in the data that come with the program. What the provider answers is any text.
-/

namespace Wbme.Hr.Holiday

open Lib Lib.Calendar

/-! ## Dates -/

/-- The day that `Date.UTC` makes of the numbers of a date: years below 100 are read as those of
the twentieth century. -/
def utcDay (date : Int) : Int :=
  let year := marchYear (date + 719468)
  if 0 ≤ (ofDay date).year ∧ (ofDay date).year ≤ 99 then
    date + (yearStart (year + 1900) - yearStart year)
  else date

/-- Monday is 1 and Sunday is 7. -/
def realWeekday (date : Int) : Int :=
  let weekday := (utcDay date + 4) % 7
  if weekday = 0 then 7 else weekday

def padded (width : Nat) (n : Int) : String :=
  let text := toString n
  String.ofList (List.replicate (width - text.length) '0') ++ text

/-- `YYYY-MM-DD` -/
def dateText (date : Int) : String :=
  let d := ofDay date
  s!"{padded 4 d.year}-{padded 2 d.month}-{padded 2 d.day}"

/-! ## The response -/

inductive HolidayDateType where
  | workday
  | weekend
  | holiday
  | adjustedHoliday
  | adjustedWorkday

structure NormalizedHoliday where
  dateType : HolidayDateType
  weekday : Int
  source : String
  digest : String
  fetchedAt : String

inductive HolidayValidation where
  | ok (normalized : NormalizedHoliday) (rawDigest : String)
  | rejected (reason : String)
  | typeError

abbrev Value := JsValue ℚ

structure Runtime where
  /-- `JSON.parse`, if it does not throw. -/
  parse : String → Option Value
  /-- The text that `String` makes of a value, where it does not throw. -/
  display : Option Value → String
  sha256 : String → String
  toISOString : Nat → String

def member? (value : Option Value) (name : String) : Option Value :=
  match value with
  | some (.obj fields) => (fields.lookup name).join
  | _ => none

mutual

/-- `String` throws for an object whose own `toString` hides the one that could be called. -/
def printable : Value → Bool
  | .obj fields => (fields.lookup "toString").isNone
  | .arr items => allPrintable items
  | _ => true

def allPrintable : List Value → Bool
  | [] => true
  | item :: items => printable item && allPrintable items

end

def rejectedFor (rt : Runtime) (reason : String) (value : Option Value) : HolidayValidation :=
  if value.all printable then .rejected s!"{reason} {rt.display value}" else .typeError

def integerIn (low high : Int) : Option Value → Option Int
  | some (.num n) => if n.den = 1 ∧ low ≤ n.num ∧ n.num ≤ high then some n.num else none
  | _ => none

def isNumber (n : ℚ) : Option Value → Bool
  | some (.num m) => m == n
  | _ => false

def isText (text : String) : Option Value → Bool
  | some (.str s) => s == text
  | _ => false

def isBoolean (b : Bool) : Option Value → Bool
  | some (.bool c) => c == b
  | _ => false

def isNullish : Option Value → Bool
  | none => true
  | some .null => true
  | _ => false

def isObject : Option Value → Bool
  | some (.obj _) => true
  | some (.arr _) => true
  | _ => false

/-- The day that a response with this type and weekday tells of. -/
def validateType (typeValue weekday requestedDate : Int) (holiday : Option Value) :
    Except String HolidayDateType :=
  if typeValue = 0 then
    if !isNullish holiday then .error "工作日响应携带 holiday 对象，语义矛盾" else .ok .workday
  else if !isObject holiday then .error "非工作日响应缺少 holiday 对象"
  else if !isText (dateText requestedDate) (member? holiday "date") then
    .error "响应日期与请求日期不一致"
  else if typeValue = 1 then
    if !(isBoolean true (member? holiday "holiday") && isNumber 2 (member? holiday "wage") &&
        (weekday == 6 || weekday == 7)) then
      .error "周末类型与休息/补班语义矛盾"
    else .ok .weekend
  else if typeValue = 2 then
    if !(isBoolean true (member? holiday "holiday") &&
        (isNumber 2 (member? holiday "wage") || isNumber 3 (member? holiday "wage"))) then
      .error "休假日类型与休息/补班语义矛盾"
    else if isNumber 3 (member? holiday "wage") then .ok .holiday
    else .ok .adjustedHoliday
  else if !(isBoolean false (member? holiday "holiday") && isNumber 1 (member? holiday "wage") &&
      (weekday == 6 || weekday == 7)) then
    .error "补班类型与休息/补班语义矛盾"
  else .ok .adjustedWorkday

def validateParsed (rt : Runtime) (parsed : Value) (requestedDate : Int)
    (source digest fetchedAt : String) : HolidayValidation :=
  let code := member? (some parsed) "code"
  let typeValue := member? (member? (some parsed) "type") "type"
  if !isNumber 0 code then rejectedFor rt "供应商返回错误码" code
  else
    match integerIn 0 4 typeValue with
    | none => rejectedFor rt "未知日期类型枚举" typeValue
    | some typeValue =>
        match integerIn 1 7 (member? (member? (some parsed) "type") "week") with
        | none => .rejected "星期值非法"
        | some weekday =>
            if weekday ≠ realWeekday requestedDate then .rejected "星期值与请求日期不一致"
            else
              match validateType typeValue weekday requestedDate
                  (member? (some parsed) "holiday") with
              | .error reason => .rejected reason
              | .ok dateType => .ok ⟨dateType, weekday, source, digest, fetchedAt⟩ digest

def validateHolidayResponse (rt : Runtime) (raw : String) (requestedDate : Int)
    (source fetchedAt : String) : HolidayValidation :=
  match rt.parse raw with
  | none => .rejected "响应不是合法 JSON"
  -- `null` has no `code`
  | some .null => .typeError
  | some parsed => validateParsed rt parsed requestedDate source (rt.sha256 raw) fetchedAt

/-! ## The adapter -/

def holidayCacheTtlMs : Nat := 24 * 60 * 60 * 1000

def holidayProviderId : String := "ailcc"

def holidayOfflineVersion : String := "offline-2026"

/-- A row of `holiday_results`, with the texts of its JSON that are read again. -/
structure HolidayResult where
  dateType : HolidayDateType
  weekday : Int
  providerId : String
  rawDigest : String
  digest : Option String
  fetchedAtText : Option String
  /-- In milliseconds. -/
  fetchedAt : Nat

abbrev HolidayCache := Int → Option HolidayResult

inductive Fetched where
  | response (raw : String)
  | gatewayError

inductive HolidayFailure where
  | holidayApiUnavailable
  | typeError

def normalizeRow (rt : Runtime) (row : HolidayResult) : NormalizedHoliday :=
  ⟨row.dateType, row.weekday, row.providerId, row.digest.getD "",
    row.fetchedAtText.getD (rt.toISOString row.fetchedAt)⟩

def isFresh (row : HolidayResult) (now : Nat) : Bool := now ≤ row.fetchedAt + holidayCacheTtlMs

def findFreshCached (rt : Runtime) (cache : HolidayCache) (date : Int) (now : Nat) :
    Option NormalizedHoliday :=
  ((cache (utcDay date)).filter (isFresh · now)).map (normalizeRow rt)

def findAnySaved (rt : Runtime) (cache : HolidayCache) (date : Int) : Option NormalizedHoliday :=
  (cache (utcDay date)).map (normalizeRow rt)

def rowOf (normalized : NormalizedHoliday) (rawDigest : String) (time : Nat) : HolidayResult :=
  ⟨normalized.dateType, normalized.weekday, holidayProviderId, rawDigest, some normalized.digest,
    some normalized.fetchedAt, time⟩

def upsertCached (cache : HolidayCache) (date : Int) (row : HolidayResult) : HolidayCache :=
  Function.update cache (utcDay date) (some row)

/-- The entry of a day in the data that come with the program. -/
def offlineEntry (rt : Runtime) (dateType : HolidayDateType) (weekday : Int) (time : Nat) :
    NormalizedHoliday :=
  ⟨dateType, weekday, holidayOfflineVersion, holidayOfflineVersion, rt.toISOString time⟩

section Adapter

variable (rt : Runtime) (days : Int → Option HolidayDateType)

def lookupOffline (date : Int) (time : Nat) : Option NormalizedHoliday :=
  (days date).map fun dateType => offlineEntry rt dateType (realWeekday date) time

/-- What is left when the provider fails. -/
def fallBack (date : Int) (time : Nat) (cache : HolidayCache) :
    Except HolidayFailure NormalizedHoliday :=
  match findAnySaved rt cache date with
  | some saved => .ok saved
  | none =>
      match lookupOffline rt days date time with
      | some offline => .ok offline
      | none => .error .holidayApiUnavailable

/-- The call of the provider begins at a time and takes another. -/
def resolveOnce (date : Int) (now elapsed : Nat) (fetched : Fetched) (cache : HolidayCache) :
    Except HolidayFailure NormalizedHoliday × HolidayCache :=
  match findFreshCached rt cache date now with
  | some cached => (.ok cached, cache)
  | none =>
      match fetched with
      | .gatewayError => (fallBack rt days date (now + elapsed) cache, cache)
      | .response raw =>
          match validateHolidayResponse rt raw date holidayProviderId
              (rt.toISOString (now + elapsed)) with
          | .ok normalized rawDigest =>
              (.ok normalized, upsertCached cache date (rowOf normalized rawDigest (now + elapsed)))
          | .rejected _ => (fallBack rt days date (now + elapsed) cache, cache)
          | .typeError => (.error .typeError, cache)

/-! ## What is promised -/

def isoWeekday (date : Int) : Int := (date + 3) % 7 + 1

/-- A response without error says a type, and the weekday of the date. -/
structure Tells (date : Int) (v : Value) (typeValue : Int) : Prop where
  code : member? (some v) "code" = some (.num 0)
  type : member? (member? (some v) "type") "type" = some (.num typeValue)
  week : member? (member? (some v) "type") "week" = some (.num (isoWeekday date))

/-- The response names the date, and says whether it is free and how it is paid. -/
structure Names (date : Int) (v : Value) (holiday : Bool) (wage : ℚ) : Prop where
  date : member? (member? (some v) "holiday") "date" = some (.str (dateText date))
  holiday : member? (member? (some v) "holiday") "holiday" = some (.bool holiday)
  wage : member? (member? (some v) "holiday") "wage" = some (.num wage)

inductive Documented (date : Int) (v : Value) : HolidayDateType → Prop where
  | workday (tells : Tells date v 0) (none : isNullish (member? (some v) "holiday") = true)
      (fits : isoWeekday date ≤ 5) : Documented date v .workday
  | weekend (tells : Tells date v 1) (names : Names date v true 2) (fits : 6 ≤ isoWeekday date) :
      Documented date v .weekend
  | holiday (tells : Tells date v 2) (names : Names date v true 3) : Documented date v .holiday
  | adjustedHoliday (tells : Tells date v 2) (names : Names date v true 2) :
      Documented date v .adjustedHoliday
  | adjustedWorkday (tells : Tells date v 4) (names : Names date v false 1)
      (fits : 6 ≤ isoWeekday date) : Documented date v .adjustedWorkday

def Fetched.Is (fetched : Fetched) (raw : String) (date : Int) (dateType : HolidayDateType) :
    Prop :=
  fetched = .response raw ∧ ∃ v, rt.parse raw = some v ∧ Documented date v dateType

/-- What a call comes to, and what the cache holds behind it. -/
structure Law (date : Int) (now elapsed : Nat) (fetched : Fetched) (cache : HolidayCache)
    (outcome : Except HolidayFailure NormalizedHoliday × HolidayCache) : Prop where
  fresh : ∀ row, cache date = some row → isFresh row now = true →
    outcome = (.ok (normalizeRow rt row), cache)
  provided : (∀ row, cache date = some row → isFresh row now = false) →
    ∀ raw dateType, fetched.Is rt raw date dateType →
    let normalized : NormalizedHoliday := ⟨dateType, isoWeekday date, holidayProviderId,
      rt.sha256 raw, rt.toISOString (now + elapsed)⟩
    outcome = (.ok normalized, Function.update cache date
      (some (rowOf normalized (rt.sha256 raw) (now + elapsed))))
  saved : (∀ raw dateType, ¬ fetched.Is rt raw date dateType) →
    ∀ row, cache date = some row → isFresh row now = false →
    outcome = (.ok (normalizeRow rt row), cache)
  offline : (∀ raw dateType, ¬ fetched.Is rt raw date dateType) → cache date = none →
    ∀ dateType, days date = some dateType →
    outcome = (.ok (offlineEntry rt dateType (isoWeekday date) (now + elapsed)), cache)
  unavailable : (∀ raw dateType, ¬ fetched.Is rt raw date dateType) → cache date = none →
    days date = none → outcome = (.error .holidayApiUnavailable, cache)

end Adapter

/-! ## What is accepted -/

/-- The responses at which the adapter breaks its promise. -/
inductive Slip (date : Int) (v : Value) : Prop where
  | null (h : v = .null)
  /-- `String` throws for the code that the reason is to show. -/
  | code (h : (member? (some v) "code").all printable = false)
  | type (code : member? (some v) "code" = some (.num 0))
      (h : (member? (member? (some v) "type") "type").all printable = false)
  /-- Type 3 is taken for type 4. -/
  | third (tells : Tells date v 3) (names : Names date v false 1) (fits : 6 ≤ isoWeekday date)
  /-- A working day on a weekend. -/
  | weekend (tells : Tells date v 0) (none : isNullish (member? (some v) "holiday") = true)
      (fits : 6 ≤ isoWeekday date)

section Validation

variable {rt : Runtime} {date : Int} {v : Value} {value : Option Value} {dateType : HolidayDateType}
  {source digest fetchedAt : String}

theorem isoWeekday_range (date : Int) : 1 ≤ isoWeekday date ∧ isoWeekday date ≤ 7 := by
  unfold isoWeekday
  omega

theorem realWeekday_eq (hdate : utcDay date = date) : realWeekday date = isoWeekday date := by
  unfold realWeekday isoWeekday
  rw [hdate]
  dsimp only
  split <;> omega

theorem isNumber_iff {n : ℚ} : isNumber n value = true ↔ value = some (.num n) := by
  unfold isNumber
  split <;> simp_all

theorem isText_iff {text : String} : isText text value = true ↔ value = some (.str text) := by
  unfold isText
  split <;> simp_all

theorem isBoolean_iff {b : Bool} : isBoolean b value = true ↔ value = some (.bool b) := by
  unfold isBoolean
  split
  · rw [beq_iff_eq, Option.some.injEq, JsValue.bool.injEq]
  · rename_i hbool
    exact ⟨nofun, fun h => absurd h (hbool b)⟩

theorem integerIn_eq_some {low high n : Int} :
    integerIn low high value = some n ↔ value = some (.num n) ∧ low ≤ n ∧ n ≤ high := by
  unfold integerIn
  split
  · rename_i m
    constructor
    · intro h
      split at h
      · rename_i hm
        cases h
        refine ⟨?_, hm.2⟩
        rw [← (Rat.den_eq_one_iff m).mp hm.1]
        simp
      · cases h
    · rintro ⟨h, hrange⟩
      cases h
      simp [hrange]
  · rename_i hnum
    simp only [reduceCtorEq, false_iff, not_and]
    intro h
    exact absurd h (hnum _)

theorem isObject_of_member {name : String} {x : Value} (h : member? value name = some x) :
    isObject value = true := by
  unfold member? at h
  split at h
  · rfl
  · cases h

theorem weekend_iff : (isoWeekday date == 6 || isoWeekday date == 7) = true ↔
    6 ≤ isoWeekday date := by
  have := isoWeekday_range date
  simp only [Bool.or_eq_true, beq_iff_eq]
  omega

theorem Tells.unique {a b : Int} (h : Tells date v a) (h' : Tells date v b) : a = b := by
  have := h.type.symm.trans h'.type
  simpa using this

variable {typeValue : Int}

/-- The day that a response tells of by the validator. -/
def told (date : Int) (v : Value) (typeValue : Int) : Except String HolidayDateType :=
  validateType typeValue (isoWeekday date) date (member? (some v) "holiday")

theorem told_named {flag : Bool} {wage : ℚ} (h : Names date v flag wage) (hzero : typeValue ≠ 0) :
    told date v typeValue =
      if typeValue = 1 then
        if !(flag == true && wage == 2 && decide (6 ≤ isoWeekday date)) then
          .error "周末类型与休息/补班语义矛盾"
        else .ok .weekend
      else if typeValue = 2 then
        if !(flag == true && (wage == 2 || wage == 3)) then
          .error "休假日类型与休息/补班语义矛盾"
        else if wage == 3 then .ok .holiday
        else .ok .adjustedHoliday
      else if !(flag == false && wage == 1 && decide (6 ≤ isoWeekday date)) then
        .error "补班类型与休息/补班语义矛盾"
      else .ok .adjustedWorkday := by
  have hweekend : (isoWeekday date == 6 || isoWeekday date == 7) =
      decide (6 ≤ isoWeekday date) := by
    rw [Bool.eq_iff_iff, weekend_iff, decide_eq_true_iff]
  simp only [told, validateType, if_neg hzero, isText_iff.mpr h.date, isObject_of_member h.date,
    h.holiday, h.wage, hweekend, isBoolean, isNumber, Bool.not_true, Bool.false_eq_true, if_false]

theorem told_of_documented (htells : Tells date v typeValue) (h : Documented date v dateType) :
    told date v typeValue = .ok dateType := by
  cases h with
  | workday tells none fits =>
      obtain rfl := htells.unique tells
      simp [told, validateType, none]
  | weekend tells names fits =>
      obtain rfl := htells.unique tells
      rw [told_named names (by decide)]
      simp [fits]
  | holiday tells names =>
      obtain rfl := htells.unique tells
      rw [told_named names (by decide)]
      simp
  | adjustedHoliday tells names =>
      obtain rfl := htells.unique tells
      rw [told_named names (by decide)]
      simp
  | adjustedWorkday tells names fits =>
      obtain rfl := htells.unique tells
      rw [told_named names (by decide)]
      simp [fits]

theorem documented_or_slip (htells : Tells date v typeValue)
    (hrange : 0 ≤ typeValue ∧ typeValue ≤ 4) (h : told date v typeValue = .ok dateType) :
    Documented date v dateType ∨ Slip date v := by
  by_cases hzero : typeValue = 0
  · subst hzero
    simp only [told, validateType, if_true] at h
    split at h
    · cases h
    · rename_i hnone
      cases h
      simp only [Bool.not_eq_true, Bool.not_eq_false'] at hnone
      by_cases hfits : 6 ≤ isoWeekday date
      · exact .inr (.weekend htells hnone hfits)
      · exact .inl (.workday htells hnone (by omega))
  · simp only [told, validateType, if_neg hzero] at h
    split at h
    · cases h
    split at h
    · cases h
    rename_i hnamed
    simp only [Bool.not_eq_true, Bool.not_eq_false', isText_iff] at hnamed
    split at h
    · rename_i hone
      subst hone
      split at h
      · cases h
      rename_i hshape
      cases h
      simp only [Bool.not_eq_true, Bool.not_eq_false', Bool.and_eq_true, isBoolean_iff,
        isNumber_iff, weekend_iff] at hshape
      exact .inl (.weekend htells ⟨hnamed, hshape.1.1, hshape.1.2⟩ hshape.2)
    split at h
    · rename_i htwo
      subst htwo
      split at h
      · cases h
      rename_i hshape
      simp only [Bool.not_eq_true, Bool.not_eq_false', Bool.and_eq_true, Bool.or_eq_true,
        isBoolean_iff, isNumber_iff] at hshape
      split at h
      · rename_i hwage
        cases h
        exact .inl (.holiday htells ⟨hnamed, hshape.1, isNumber_iff.mp hwage⟩)
      · rename_i hwage
        cases h
        rw [isNumber_iff] at hwage
        exact .inl (.adjustedHoliday htells ⟨hnamed, hshape.1, hshape.2.resolve_right hwage⟩)
    · rename_i hone htwo
      split at h
      · cases h
      rename_i hshape
      cases h
      simp only [Bool.not_eq_true, Bool.not_eq_false', Bool.and_eq_true, isBoolean_iff,
        isNumber_iff, weekend_iff] at hshape
      have hnames : Names date v false 1 := ⟨hnamed, hshape.1.1, hshape.1.2⟩
      obtain rfl | rfl : typeValue = 3 ∨ typeValue = 4 := by omega
      · exact .inr (.third htells hnames hshape.2)
      · exact .inl (.adjustedWorkday htells hnames hshape.2)

/-- What the validator says of a response: it is documented and accepted, a slip, or rejected. -/
inductive Verdict (date : Int) (v : Value) (source digest fetchedAt : String) :
    HolidayValidation → Prop where
  | documented (dateType : HolidayDateType) (h : Documented date v dateType)
      (only : ∀ t, Documented date v t → t = dateType) :
      Verdict date v source digest fetchedAt
        (.ok ⟨dateType, isoWeekday date, source, digest, fetchedAt⟩ digest)
  | accepted (h : Slip date v) (none : ∀ t, ¬ Documented date v t) (n : NormalizedHoliday) :
      Verdict date v source digest fetchedAt (.ok n digest)
  | thrown (h : Slip date v) (none : ∀ t, ¬ Documented date v t) :
      Verdict date v source digest fetchedAt .typeError
  | rejected (noSlip : ¬ Slip date v) (none : ∀ t, ¬ Documented date v t) (reason : String) :
      Verdict date v source digest fetchedAt (.rejected reason)

theorem Documented.tells (h : Documented date v dateType) :
    ∃ typeValue, (0 ≤ typeValue ∧ typeValue ≤ 4) ∧ Tells date v typeValue ∧ typeValue ≠ 3 := by
  cases h with
  | workday tells none fits => exact ⟨0, by decide, tells, by decide⟩
  | weekend tells names fits => exact ⟨1, by decide, tells, by decide⟩
  | holiday tells names => exact ⟨2, by decide, tells, by decide⟩
  | adjustedHoliday tells names => exact ⟨2, by decide, tells, by decide⟩
  | adjustedWorkday tells names fits => exact ⟨4, by decide, tells, by decide⟩

theorem Documented.noSlip (h : Documented date v dateType) : ¬ Slip date v := by
  obtain ⟨typeValue, -, htells, hthree⟩ := h.tells
  intro hslip
  cases hslip with
  | null hnull =>
      subst hnull
      cases htells.code
  | code hcode => simp [htells.code, printable] at hcode
  | type _ htype => simp [htells.type, printable] at htype
  | third tells => exact hthree (htells.unique tells)
  | weekend tells _ hfits =>
      cases h with
      | workday _ _ fits => omega
      | weekend tells' => exact absurd (tells'.unique tells) (by decide)
      | holiday tells' => exact absurd (tells'.unique tells) (by decide)
      | adjustedHoliday tells' => exact absurd (tells'.unique tells) (by decide)
      | adjustedWorkday tells' => exact absurd (tells'.unique tells) (by decide)

theorem Slip.told (h : Slip date v) (htells : Tells date v typeValue) :
    ∃ dateType, told date v typeValue = .ok dateType := by
  cases h with
  | null hnull =>
      subst hnull
      cases htells.code
  | code hcode => simp [htells.code, printable] at hcode
  | type _ htype => simp [htells.type, printable] at htype
  | third tells names fits =>
      obtain rfl := htells.unique tells
      exact ⟨.adjustedWorkday, by rw [told_named names (by decide)]; simp [fits]⟩
  | weekend tells none fits =>
      obtain rfl := htells.unique tells
      exact ⟨.workday, by simp [Holiday.told, validateType, none]⟩

theorem verdict_of_tells (rt : Runtime) (hdate : utcDay date = date)
    (htells : Tells date v typeValue) (hrange : 0 ≤ typeValue ∧ typeValue ≤ 4) :
    Verdict date v source digest fetchedAt
      (validateParsed rt v date source digest fetchedAt) := by
  have heq : validateParsed rt v date source digest fetchedAt =
      match told date v typeValue with
      | .error reason => .rejected reason
      | .ok dateType => .ok ⟨dateType, isoWeekday date, source, digest, fetchedAt⟩ digest := by
    simp only [validateParsed, isNumber_iff.mpr htells.code, Bool.not_true, Bool.false_eq_true,
      if_false, integerIn_eq_some.mpr ⟨htells.type, hrange⟩,
      integerIn_eq_some.mpr ⟨htells.week, isoWeekday_range date⟩, realWeekday_eq hdate, ne_eq,
      not_true]
    rfl
  rw [heq]
  cases htold : told date v typeValue with
  | error reason =>
      refine .rejected ?_ ?_ reason
      · intro hslip
        obtain ⟨t, ht⟩ := hslip.told htells
        cases htold.symm.trans ht
      · intro t ht
        cases htold.symm.trans (told_of_documented htells ht)
  | ok dateType =>
      have honly : ∀ t, Documented date v t → t = dateType := by
        intro t ht
        cases (told_of_documented htells ht).symm.trans htold
        rfl
      rcases documented_or_slip htells hrange htold with hdocumented | hslip
      · exact .documented dateType hdocumented honly
      · exact .accepted hslip (fun t ht => ht.noSlip hslip) _

theorem verdict_rejectedFor (rt : Runtime) (reason : String) (none : ∀ t, ¬ Documented date v t)
    (hslip : Slip date v ↔ value.all printable = false) :
    Verdict date v source digest fetchedAt (rejectedFor rt reason value) := by
  unfold rejectedFor
  split
  · rename_i hprintable
    exact .rejected (fun h => by simp [hprintable] at hslip; exact hslip h) none _
  · rename_i hthrows
    exact .thrown (hslip.mpr (Bool.not_eq_true _ ▸ hthrows)) none

theorem verdict_parsed (rt : Runtime) (hdate : utcDay date = date) (hnull : v ≠ .null) :
    Verdict date v source digest fetchedAt
      (validateParsed rt v date source digest fetchedAt) := by
  by_cases htells : ∃ typeValue, (0 ≤ typeValue ∧ typeValue ≤ 4) ∧ Tells date v typeValue
  · obtain ⟨typeValue, hrange, htells⟩ := htells
    exact verdict_of_tells rt hdate htells hrange
  · have hnone : ∀ t, ¬ Documented date v t := by
      intro t ht
      obtain ⟨typeValue, hrange, htold, -⟩ := ht.tells
      exact htells ⟨typeValue, hrange, htold⟩
    -- Without a type and a weekday, a slip is a value that the reason cannot show.
    have hslip : Slip date v → (member? (some v) "code").all printable = false ∨
        member? (some v) "code" = some (.num 0) ∧
          (member? (member? (some v) "type") "type").all printable = false := by
      intro h
      cases h with
      | null h => exact absurd h hnull
      | code h => exact .inl h
      | type code h => exact .inr ⟨code, h⟩
      | third tells => exact absurd ⟨3, by decide, tells⟩ htells
      | weekend tells => exact absurd ⟨0, by decide, tells⟩ htells
    unfold validateParsed
    dsimp only
    split
    · rename_i hcode
      refine verdict_rejectedFor rt _ hnone ⟨fun h => ?_, .code⟩
      refine (hslip h).resolve_right fun hzero => ?_
      rw [isNumber_iff.mpr hzero.1] at hcode
      cases hcode
    · rename_i hcode
      have hcode : member? (some v) "code" = some (.num 0) := by
        rw [← isNumber_iff]
        simpa using hcode
      have hunprintable : Slip date v →
          (member? (member? (some v) "type") "type").all printable = false := by
        intro h
        rcases hslip h with hthrows | htype
        · simp [hcode, printable] at hthrows
        · exact htype.2
      cases htype : integerIn 0 4 (member? (member? (some v) "type") "type") with
      | none => exact verdict_rejectedFor rt _ hnone ⟨hunprintable, .type hcode⟩
      | some typeValue =>
          obtain ⟨htype, hrange⟩ := integerIn_eq_some.mp htype
          have hnoSlip : ¬ Slip date v := by
            intro h
            have hthrows := hunprintable h
            simp [htype, printable] at hthrows
          dsimp only
          split
          · exact .rejected hnoSlip hnone _
          · rename_i weekday hweek
            split
            · exact .rejected hnoSlip hnone _
            · rename_i hreal
              obtain rfl : weekday = isoWeekday date :=
                (not_not.mp hreal).trans (realWeekday_eq hdate)
              exact absurd ⟨typeValue, hrange, hcode, htype, (integerIn_eq_some.mp hweek).1⟩ htells

theorem verdict (rt : Runtime) (hdate : utcDay date = date) {raw : String}
    (hparse : rt.parse raw = some v) :
    Verdict date v source (rt.sha256 raw) fetchedAt
      (validateHolidayResponse rt raw date source fetchedAt) := by
  unfold validateHolidayResponse
  rw [hparse]
  by_cases hnull : v = .null
  · subst hnull
    refine .thrown (.null rfl) ?_
    intro t ht
    obtain ⟨typeValue, -, htells, -⟩ := ht.tells
    cases htells.code
  · have hparsed : Verdict date v source (rt.sha256 raw) fetchedAt
        (validateParsed rt v date source (rt.sha256 raw) fetchedAt) :=
      verdict_parsed rt hdate hnull
    cases v with
    | null => exact absurd rfl hnull
    | _ => exact hparsed

end Validation

/-! ## When the adapter keeps its promise -/

def Fetched.Slips (rt : Runtime) (fetched : Fetched) (date : Int) : Prop :=
  ∃ raw v, fetched = .response raw ∧ rt.parse raw = some v ∧ Slip date v

section Promise

variable {rt : Runtime} {days : Int → Option HolidayDateType} {date : Int} {fetched : Fetched}

theorem utcDay_ne (h : 0 ≤ (ofDay date).year ∧ (ofDay date).year ≤ 99) : utcDay date ≠ date := by
  unfold utcDay
  rw [if_pos h]
  unfold yearStart
  omega

variable {now elapsed : Nat} {cache : HolidayCache}

def Stale (cache : HolidayCache) (date : Int) (now : Nat) : Prop :=
  ∀ row, cache date = some row → isFresh row now = false

theorem findFreshCached_stale (rt : Runtime) (hstale : Stale cache (utcDay date) now) :
    findFreshCached rt cache date now = none := by
  unfold findFreshCached
  cases hrow : cache (utcDay date) with
  | none => rfl
  | some row => rw [Option.filter_some, if_neg (by simp [hstale row hrow]), Option.map_none]

theorem law_fallBack (hdate : utcDay date = date) (hstale : Stale cache date now)
    (hnot : ∀ raw dateType, ¬ fetched.Is rt raw date dateType) :
    Law rt days date now elapsed fetched cache
      (fallBack rt days date (now + elapsed) cache, cache) := by
  unfold fallBack findAnySaved lookupOffline
  rw [hdate, realWeekday_eq hdate]
  constructor
  · intro row hrow hfresh
    rw [hstale row hrow] at hfresh
    cases hfresh
  · intro _ raw dateType his
    exact absurd his (hnot raw dateType)
  · intro _ row hrow _
    rw [hrow]
    rfl
  · intro _ hrow dateType hday
    rw [hrow, hday]
    rfl
  · intro _ hrow hday
    rw [hrow, hday]
    rfl

theorem law_provided (hdate : utcDay date = date) (hstale : Stale cache date now) {raw : String}
    {v : Value} {dateType : HolidayDateType} (hparse : rt.parse raw = some v)
    (h : Documented date v dateType) (honly : ∀ t, Documented date v t → t = dateType) :
    let normalized : NormalizedHoliday := ⟨dateType, isoWeekday date, holidayProviderId,
      rt.sha256 raw, rt.toISOString (now + elapsed)⟩
    Law rt days date now elapsed (.response raw) cache (.ok normalized,
      upsertCached cache date (rowOf normalized (rt.sha256 raw) (now + elapsed))) := by
  have his : Fetched.Is rt (.response raw) raw date dateType := ⟨rfl, v, hparse, h⟩
  constructor
  · intro row hrow hfresh
    rw [hstale row hrow] at hfresh
    cases hfresh
  · intro _ raw' dateType' his'
    obtain ⟨heq, v', hparse', h'⟩ := his'
    cases heq
    obtain rfl := Option.some.inj (hparse'.symm.trans hparse)
    obtain rfl := honly dateType' h'
    rw [upsertCached, hdate]
  · intro hnot
    exact absurd his (hnot raw dateType)
  · intro hnot
    exact absurd his (hnot raw dateType)
  · intro hnot
    exact absurd his (hnot raw dateType)

theorem law_of_not_slips (hdate : utcDay date = date) (hslips : ¬ fetched.Slips rt date)
    (now elapsed : Nat) (cache : HolidayCache) :
    Law rt days date now elapsed fetched cache
      (resolveOnce rt days date now elapsed fetched cache) := by
  by_cases hstale : Stale cache date now
  · unfold resolveOnce
    rw [findFreshCached_stale rt (hdate.symm ▸ hstale)]
    cases fetched with
    | gatewayError => exact law_fallBack hdate hstale fun raw t his => nomatch his.1
    | response raw =>
        cases hparse : rt.parse raw with
        | none =>
            have hrejected : ∀ source fetchedAt,
                validateHolidayResponse rt raw date source fetchedAt =
                  .rejected "响应不是合法 JSON" := by
              intro source fetchedAt
              rw [validateHolidayResponse, hparse]
            simp only [hrejected]
            refine law_fallBack hdate hstale fun raw' t his => ?_
            obtain ⟨heq, v, hv, -⟩ := his
            cases heq
            cases hparse.symm.trans hv
        | some v =>
            have hslip : ¬ Slip date v := fun h => hslips ⟨raw, v, rfl, hparse, h⟩
            have hverdict : Verdict date v _ _ _ (validateHolidayResponse rt raw date
              holidayProviderId (rt.toISOString (now + elapsed))) := verdict rt hdate hparse
            dsimp only
            generalize validateHolidayResponse rt raw date holidayProviderId
              (rt.toISOString (now + elapsed)) = validation at hverdict ⊢
            cases hverdict with
            | documented dateType h honly => exact law_provided hdate hstale hparse h honly
            | accepted h => exact absurd h hslip
            | thrown h => exact absurd h hslip
            | rejected _ hnone =>
                refine law_fallBack hdate hstale fun raw' t his => ?_
                obtain ⟨heq, v', hv', h⟩ := his
                cases heq
                obtain rfl := Option.some.inj (hv'.symm.trans hparse)
                exact hnone t h
  · simp only [Stale, not_forall, Bool.not_eq_false] at hstale
    obtain ⟨row, hrow, hfresh⟩ := hstale
    have hfound : findFreshCached rt cache date now = some (normalizeRow rt row) := by
      rw [findFreshCached, hdate, hrow, Option.filter_some, if_pos hfresh, Option.map_some]
    unfold resolveOnce
    rw [hfound]
    have hsame : ∀ row', cache date = some row' → row' = row :=
      fun row' h => Option.some.inj (h.symm.trans hrow)
    constructor
    · intro row' hrow' _
      rw [hsame row' hrow']
    · intro hstale
      exact absurd (hstale row hrow) (by simp [hfresh])
    · intro _ row' hrow' hstale
      rw [hsame row' hrow', hfresh] at hstale
      cases hstale
    · intro _ hnone
      cases hnone.symm.trans hrow
    · intro _ hnone
      cases hnone.symm.trans hrow

theorem not_law_of_moved (rt : Runtime) (days : Int → Option HolidayDateType) (fetched : Fetched)
    (hdate : utcDay date ≠ date) :
    ∃ cache, ¬ Law rt days date 0 0 fetched cache (resolveOnce rt days date 0 0 fetched cache) := by
  let row : HolidayResult := ⟨.workday, 1, "", "", none, none, 0⟩
  let cache : HolidayCache := Function.update (fun _ => none) date (some row)
  have hnone : cache (utcDay date) = none := Function.update_of_ne hdate _ _
  refine ⟨cache, fun hlaw => ?_⟩
  have hpromised := hlaw.fresh row (Function.update_self _ _ _) (by decide)
  have hfall : (fallBack rt days date (0 + 0) cache, cache) ≠
      (.ok (normalizeRow rt row), cache) := by
    unfold fallBack findAnySaved lookupOffline
    rw [hnone]
    cases days date with
    | none => exact fun h => nomatch congrArg Prod.fst h
    | some dateType =>
        intro h
        have := congrArg Prod.fst h
        simp [offlineEntry, normalizeRow, row, holidayOfflineVersion] at this
  unfold resolveOnce at hpromised
  rw [findFreshCached_stale rt (fun r hr => nomatch hnone.symm.trans hr)] at hpromised
  cases fetched with
  | gatewayError => exact hfall hpromised
  | response raw =>
      dsimp only at hpromised
      split at hpromised
      · have := congrFun (congrArg Prod.snd hpromised) (utcDay date)
        simp [upsertCached, hnone] at this
      · exact hfall hpromised
      · cases congrArg Prod.fst hpromised

theorem not_law_of_slips (hdate : utcDay date = date) (hslips : fetched.Slips rt date) :
    ¬ Law rt days date 0 0 fetched (fun _ => none)
      (resolveOnce rt days date 0 0 fetched fun _ => none) := by
  obtain ⟨raw, v, rfl, hparse, hslip⟩ := hslips
  have hverdict : Verdict date v _ _ _ (validateHolidayResponse rt raw date
    holidayProviderId (rt.toISOString (0 + 0))) := verdict rt hdate hparse
  have hnot : ∀ raw' t, ¬ Fetched.Is rt (.response raw) raw' date t := by
    intro raw' t his
    obtain ⟨heq, v', hv', h⟩ := his
    cases heq
    obtain rfl := Option.some.inj (hv'.symm.trans hparse)
    exact h.noSlip hslip
  intro hlaw
  -- From the empty cache, an entry or `unavailable` is promised, and an empty cache.
  have hpromised : ∃ promised, promised ≠ .error .typeError ∧
      resolveOnce rt days date 0 0 (.response raw) (fun _ => none) = (promised, fun _ => none) := by
    cases hday : days date with
    | none =>
        refine ⟨_, ?_, hlaw.unavailable hnot rfl hday⟩
        exact nofun
    | some t =>
        refine ⟨_, ?_, hlaw.offline hnot rfl t hday⟩
        exact nofun
  obtain ⟨promised, hne, heq⟩ := hpromised
  unfold resolveOnce at heq
  rw [findFreshCached_stale rt (by simp [Stale])] at heq
  dsimp only at heq
  generalize validateHolidayResponse rt raw date holidayProviderId
    (rt.toISOString (0 + 0)) = validation at hverdict heq
  cases hverdict with
  | documented _ h => exact h.noSlip hslip
  | accepted =>
      have := congrFun (congrArg Prod.snd heq) (utcDay date)
      simp [upsertCached] at this
  | thrown => exact hne (congrArg Prod.fst heq).symm
  | rejected hnoSlip => exact hnoSlip hslip

end Promise

/-- A runtime that parses the texts of the tests. -/
def someRuntime : Runtime where
  parse raw := if raw = "null" then some .null else none
  display _ := ""
  sha256 raw := raw
  toISOString _ := "2026-08-10T00:00:00.000Z"

end Wbme.Hr.Holiday

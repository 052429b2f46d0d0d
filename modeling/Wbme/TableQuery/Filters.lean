import Mathlib.Data.Rat.Floor
import Mathlib.Data.Int.Log
import Wbme.Contracts

/-!
# Table filters

The filter tree of a list request, the values that its conditions compare with and the
calendar of the product's time zone. An instant is a number of milliseconds since the
epoch; the zone is eight hours ahead throughout.
-/

namespace Wbme.TableQuery

/-! ## Filter trees -/

/-- The comparison operators; what a request names otherwise is passed through unchecked. -/
inductive TableOperator
  | equals
  | notEquals
  | contains
  | notContains
  | greaterThan
  | greaterThanOrEqual
  | lessThan
  | lessThanOrEqual
  | before
  | after
  | between
  | isEmpty
  | isNotEmpty
  | startsWith
  | endsWith
  | today
  | thisWeek
  | thisMonth
  | thisYear
  | last7Days
  | last30Days
  | unknown (name : String)
  deriving DecidableEq

def TableOperator.name : TableOperator → String
  | .equals => "EQUALS"
  | .notEquals => "NOT_EQUALS"
  | .contains => "CONTAINS"
  | .notContains => "NOT_CONTAINS"
  | .greaterThan => "GREATER_THAN"
  | .greaterThanOrEqual => "GREATER_THAN_OR_EQUAL"
  | .lessThan => "LESS_THAN"
  | .lessThanOrEqual => "LESS_THAN_OR_EQUAL"
  | .before => "BEFORE"
  | .after => "AFTER"
  | .between => "BETWEEN"
  | .isEmpty => "IS_EMPTY"
  | .isNotEmpty => "IS_NOT_EMPTY"
  | .startsWith => "STARTS_WITH"
  | .endsWith => "ENDS_WITH"
  | .today => "TODAY"
  | .thisWeek => "THIS_WEEK"
  | .thisMonth => "THIS_MONTH"
  | .thisYear => "THIS_YEAR"
  | .last7Days => "LAST_7_DAYS"
  | .last30Days => "LAST_30_DAYS"
  | .unknown name => name

def knownOperators : List TableOperator :=
  [.equals, .notEquals, .contains, .notContains, .greaterThan, .greaterThanOrEqual, .lessThan,
    .lessThanOrEqual, .before, .after, .between, .isEmpty, .isNotEmpty, .startsWith, .endsWith,
    .today, .thisWeek, .thisMonth, .thisYear, .last7Days, .last30Days]

def TableOperator.ofName (name : String) : TableOperator :=
  (knownOperators.find? (fun operator => operator.name == name)).getD (.unknown name)

def valuelessOperators : List TableOperator := [.isEmpty, .isNotEmpty]

def relativeDateOperators : List TableOperator :=
  [.today, .thisWeek, .thisMonth, .thisYear, .last7Days, .last30Days]

structure TableFilterCondition where
  field : String
  operator : TableOperator
  value : String
  valueEnd : Option String

inductive Logic
  | and
  | or

inductive TableFilterTreeNode
  | condition (c : TableFilterCondition)
  | group (logic : Logic) (conditions : List TableFilterTreeNode)

/-- Every refusal of a list request names its filters. -/
def validationError (message : String) : Failure :=
  .business .validationFailed [("field", "filters"), ("reason", message)]

def asCondition : Json → Except Failure TableFilterCondition
  | .obj record =>
      match Json.field? record "field", Json.field? record "operator",
        Json.field? record "value" with
      | some (.str field), some (.str operator), some (.str value) =>
          .ok {
            field := field
            operator := TableOperator.ofName operator
            value := value
            valueEnd := match Json.field? record "valueEnd" with
              | some (.str valueEnd) => some valueEnd
              | _ => none }
      | _, _, _ => .error (validationError "筛选条件格式不合法")
  | _ => .error (validationError "筛选条件格式不合法")

def conditionsOf : Json → Option (List (String × Json) × List Json)
  | .obj record =>
      match Json.field? record "conditions" with
      | some (.arr conditions) => some (record, conditions)
      | _ => none
  | _ => none

def logicOf (record : List (String × Json)) : Logic :=
  match Json.field? record "logic" with
  | some (.str "OR") => .or
  | _ => .and

/-- A member of a group below the root: a further group is refused. -/
def asLeaf (value : Json) : Except Failure TableFilterTreeNode :=
  match conditionsOf value with
  | some _ => .error (validationError "筛选条件格式不合法")
  | none => (asCondition value).map .condition

def asTreeNode (value : Json) : Except Failure TableFilterTreeNode :=
  match conditionsOf value with
  | some (record, conditions) => (conditions.mapM asLeaf).map (.group (logicOf record))
  | none => (asCondition value).map .condition

/-- A group of the older format. -/
def asLegacyGroup (value : Json) : Except Failure TableFilterTreeNode :=
  match conditionsOf value with
  | some (record, conditions) =>
      match Json.field? record "logic" with
      | some (.str "AND") =>
          (conditions.mapM fun c => (asCondition c).map .condition).map (.group .and)
      | _ => .error (validationError "筛选条件格式不合法")
  | none => .error (validationError "筛选条件格式不合法")

/-- The filter tree of the `filters` text, which is given as the JSON value it reads as,
`none` if it is not JSON. -/
def normalizeTableFilters (parsed : Option Json) : Except Failure TableFilterTreeNode :=
  match parsed with
  | some (.obj record) =>
      match Json.field? record "conditions" with
      | some (.arr conditions) => (conditions.mapM asTreeNode).map (.group (logicOf record))
      | _ =>
          match Json.field? record "logic", Json.field? record "groups" with
          | some (.str "OR"), some (.arr groups) => (groups.mapM asLegacyGroup).map (.group .or)
          | _, _ => .error (validationError "筛选条件格式不合法")
  | _ => .error (validationError "筛选条件格式不合法")

/-- Without the parameter there is nothing to filter. -/
def parseFilters (raw : Option (Option Json)) : Except Failure (Option TableFilterTreeNode) :=
  match raw with
  | none => .ok none
  | some parsed => (normalizeTableFilters parsed).map some

/-! ## The calendar -/

def dayMs : Int := 24 * 60 * 60 * 1000

/-- How far the product's zone is ahead. -/
def zoneMs : Int := 8 * 60 * 60 * 1000

def nextDay (value : Int) : Int := value + dayMs

def isLeapYear (year : Int) : Bool := year % 4 = 0 && (year % 100 ≠ 0 || year % 400 = 0)

def daysInMonth (year month : Int) : Int :=
  if month = 2 then (if isLeapYear year then 29 else 28)
  else if month = 4 ∨ month = 6 ∨ month = 9 ∨ month = 11 then 30
  else 31

/-- The number of a civil day, counted from the epoch; years are taken from March on. -/
def daysFromCivil (year month day : Int) : Int :=
  let y := if month ≤ 2 then year - 1 else year
  let dayOfYear := (153 * (if month > 2 then month - 3 else month + 9) + 2) / 5 + day - 1
  let yearOfEra := y - y / 400 * 400
  y / 400 * 146097 + (yearOfEra * 365 + yearOfEra / 4 - yearOfEra / 100 + dayOfYear) - 719468

/-- Year and month of a numbered day. -/
def civilFromDays (days : Int) : Int × Int :=
  let z := days + 719468
  let dayOfEra := z - z / 146097 * 146097
  let yearOfEra :=
    (dayOfEra - dayOfEra / 1460 + dayOfEra / 36524 - dayOfEra / 146096) / 365
  let dayOfYear := dayOfEra - (365 * yearOfEra + yearOfEra / 4 - yearOfEra / 100)
  let mp := (5 * dayOfYear + 2) / 153
  let month := if mp < 10 then mp + 3 else mp - 9
  (yearOfEra + z / 146097 * 400 + (if month ≤ 2 then 1 else 0), month)

/-- The instant at which a numbered day begins in the product's zone. -/
def shanghaiDayStart (days : Int) : Int := days * dayMs - zoneMs

/-- The number of the day that it is in the product's zone. -/
def shanghaiDay (instant : Int) : Int := (instant + zoneMs) / dayMs

def relativeDateRange (operator : TableOperator) (now : Int) : Except Failure (Int × Int) :=
  let today := shanghaiDay now
  let start := shanghaiDayStart today
  let (year, month) := civilFromDays today
  match operator with
  | .today => .ok (start, nextDay start)
  | .thisWeek =>
      -- day 0 was a Thursday, and the week begins on Monday
      let sinceMonday := ((today + 4) % 7 + 6) % 7
      let monday := start - sinceMonday * dayMs
      .ok (monday, monday + 7 * dayMs)
  | .thisMonth =>
      let next := if month = 12 then daysFromCivil (year + 1) 1 1
        else daysFromCivil year (month + 1) 1
      .ok (shanghaiDayStart (daysFromCivil year month 1), shanghaiDayStart next)
  | .thisYear =>
      .ok (shanghaiDayStart (daysFromCivil year 1 1),
        shanghaiDayStart (daysFromCivil (year + 1) 1 1))
  | .last7Days => .ok (start - 6 * dayMs, nextDay start)
  | .last30Days => .ok (start - 29 * dayMs, nextDay start)
  | other => .error (validationError s!"不支持相对日期操作符 {other.name}")

example : daysFromCivil 2026 8 8 = 20673 ∧ civilFromDays 20673 = (2026, 8) := by decide

/-! ## Scalar values -/

inductive FieldType
  | text
  | number
  | enum
  | date
  | time
  deriving DecidableEq

/-- A value of a column or a condition. A time of day is its minute. -/
inductive Value
  | text (s : String)
  | number (q : ℚ)
  | date (instant : Int)
  deriving DecidableEq

def Value.hasType : Value → FieldType → Bool
  | .text _, .text => true
  | .text _, .enum => true
  | .number _, .number => true
  | .number _, .time => true
  | .date _, .date => true
  | _, _ => false

def digitsValue (digits : List Char) : Nat :=
  digits.foldl (fun n c => 10 * n + (c.toNat - '0'.toNat)) 0

/-- The number of a text of the form `-?\d+(?:\.\d+)?`. -/
def parseDecimal (cs : List Char) : Option ℚ :=
  let (negative, rest) := match cs with
    | '-' :: rest => (true, rest)
    | rest => (false, rest)
  let whole := rest.takeWhile Char.isDigit
  let signed (q : ℚ) : ℚ := if negative then -q else q
  if whole.isEmpty then none
  else
    match rest.dropWhile Char.isDigit with
    | [] => some (signed (digitsValue whole))
    | '.' :: fraction =>
        if fraction.isEmpty || !fraction.all Char.isDigit then none
        else some (signed (digitsValue whole + digitsValue fraction / 10 ^ fraction.length))
    | _ => none

/-- The nearest integer, the even one of two that are equally near. -/
def roundHalfEven (q : ℚ) : Int :=
  let n := ⌊q⌋
  if q - n < 1 / 2 then n
  else if 1 / 2 < q - n then n + 1
  else if n % 2 = 0 then n else n + 1

/-- The double nearest to a number, `none` if it is out of range. -/
def toDouble (q : ℚ) : Option ℚ :=
  let ulp : ℚ := (2 : ℚ) ^ max (Int.log 2 |q| - 52) (-1074)
  let rounded := (roundHalfEven (q / ulp) : ℚ) * ulp
  if |rounded| < 2 ^ 1024 then some rounded else none

/-- The minute of a text of the form `HH:mm`, where `24:00` ends the day. -/
def parseTime (cs : List Char) : Option Nat :=
  match cs with
  | [h₁, h₂, ':', m₁, m₂] =>
      if [h₁, h₂, m₁, m₂].all Char.isDigit then
        let hour := digitsValue [h₁, h₂]
        let minute := digitsValue [m₁, m₂]
        if (hour < 24 ∧ minute < 60) ∨ (hour = 24 ∧ minute = 0) then some (hour * 60 + minute)
        else none
      else none
  | _ => none

/-- The day of a text of the form `YYYY-MM-DD`. Formatting drops the leading zeros of a
year, so that only years of four digits come back as they were. -/
def parseDate (cs : List Char) : Option (Option Int) :=
  match cs with
  | [y₁, y₂, y₃, y₄, '-', m₁, m₂, '-', d₁, d₂] =>
      if [y₁, y₂, y₃, y₄, m₁, m₂, d₁, d₂].all Char.isDigit then
        let year : Int := digitsValue [y₁, y₂, y₃, y₄]
        let month : Int := digitsValue [m₁, m₂]
        let day : Int := digitsValue [d₁, d₂]
        if 1000 ≤ year ∧ 1 ≤ month ∧ month ≤ 12 ∧ 1 ≤ day ∧ day ≤ daysInMonth year month then
          some (some (shanghaiDayStart (daysFromCivil year month day)))
        else some none
      else none
  | _ => none

def scalarValue (value : String) (type : FieldType) : Except Failure Value :=
  match type with
  | .text => .ok (.text value)
  | .enum => .ok (.text value)
  | .number =>
      match (parseDecimal value.toList).bind toDouble with
      | some q => .ok (.number q)
      | none => .error (validationError "数值筛选值不合法")
  | .time =>
      match parseTime value.toList with
      | some minute => .ok (.number minute)
      | none => .error (validationError "时间筛选值必须为 HH:mm")
  | .date =>
      match parseDate value.toList with
      | some (some instant) => .ok (.date instant)
      | some none => .error (validationError "日期筛选值不合法")
      | none => .error (validationError "日期筛选值必须为 YYYY-MM-DD")

theorem scalarValue_hasType {value : String} {type : FieldType} {v : Value}
    (h : scalarValue value type = .ok v) : v.hasType type = true := by
  unfold scalarValue at h
  cases type with
  | text => cases h; rfl
  | enum => cases h; rfl
  | number => dsimp only at h; split at h <;> cases h; rfl
  | time => dsimp only at h; split at h <;> cases h; rfl
  | date => dsimp only at h; split at h <;> cases h; rfl

end Wbme.TableQuery

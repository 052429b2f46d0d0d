import Mathlib.Algebra.Ring.Int.Defs
import Mathlib.Algebra.Ring.Nat
import Wbme.Contracts

/-! # Field values of projects

Names and their normal form, amounts as decimal texts and as hundredths, calendar dates, and
the fields that are computed from the amounts of a project.
-/

namespace Wbme.Fin

/-! ## Names -/

/-- The Unicode functions of the runtime. -/
structure Unicode where
  /-- `normalize('NFC')`. -/
  nfc : String → String
  /-- `toLocaleLowerCase('en')`. -/
  lower : String → String

/-- The white space of the runtime. -/
def isSpace (c : Char) : Bool :=
  let n := c.toNat
  (9 ≤ n && n ≤ 13) || n == 32 || n == 0xa0 || n == 0x1680 || (0x2000 ≤ n && n ≤ 0x200a) ||
    n == 0x2028 || n == 0x2029 || n == 0x202f || n == 0x205f || n == 0x3000 || n == 0xfeff

def trimChars (cs : List Char) : List Char :=
  ((cs.dropWhile isSpace).reverse.dropWhile isSpace).reverse

def trim (s : String) : String := String.ofList (trimChars s.toList)

/-- Every run of white space becomes one blank. -/
def collapse : Bool → List Char → List Char
  | _, [] => []
  | inSpace, c :: cs =>
      if isSpace c then
        if inSpace then collapse true cs else ' ' :: collapse true cs
      else c :: collapse false cs

def normalizeProjectName (u : Unicode) (name : String) : String :=
  u.lower (String.ofList (collapse false (trimChars (u.nfc name).toList)))

/-- The group of projects without a category. -/
def unclassifiedGroupName : String := "未分类"

def isUnclassifiedReservedName (u : Unicode) (name : String) : Bool :=
  normalizeProjectName u name == normalizeProjectName u unclassifiedGroupName

/-! ## Amounts -/

/-- A number with two decimals, in hundredths. -/
abbrev Decimal := Int

def natOfDigits (cs : List Char) : Nat := cs.foldl (fun n c => 10 * n + (c.toNat - 48)) 0

/-- What stands before a point, and behind it if there is one. -/
def splitPoint (cs : List Char) : List Char × Option (List Char) :=
  match cs.dropWhile (· ≠ '.') with
  | [] => (cs, none)
  | _ :: fraction => (cs.takeWhile (· ≠ '.'), some fraction)

/-- `0|[1-9]\d*` -/
def isWholePart : List Char → Bool
  | [] => false
  | ['0'] => true
  | c :: cs => c != '0' && (c :: cs).all Char.isDigit

/-- `^(?:0|[1-9]\d*)(?:\.\d{1,2})?$` -/
def isNonNegativeAmount (value : String) : Bool :=
  let parts := splitPoint value.toList
  isWholePart parts.1 && parts.2.all fun fraction =>
    (fraction.length == 1 || fraction.length == 2) && fraction.all Char.isDigit

/-- The value of a text that is an amount. -/
def decimalOf (value : String) : Decimal :=
  let parts := splitPoint value.toList
  let fraction := (parts.2.getD []) ++ ['0', '0']
  100 * natOfDigits parts.1 + natOfDigits (fraction.take 2)

def padTwo (n : Nat) : String := if n < 10 then s!"0{n}" else toString n

def Decimal.toFixed (d : Decimal) : String :=
  let sign := if d < 0 then "-" else ""
  s!"{sign}{d.natAbs / 100}.{padTwo (d.natAbs % 100)}"

def refusedBy (column : String) : Failure := .checkViolation column

/-- What a `numeric(18,2)` column makes of an amount. -/
def storeDecimal (column value : String) : Except Failure Decimal :=
  let d := decimalOf value
  if d < 10 ^ 18 then .ok d else .error (refusedBy column)

/-- An amount that may be left out; an empty text counts as left out. -/
def storeOptional (column : String) : Option String → Except Failure (Option Decimal)
  | none => .ok none
  | some "" => .ok none
  | some value => (storeDecimal column value).map some

/-! ## Dates -/

/-- The number of a day of the proleptic Gregorian calendar, counted from 1970-01-01; a day
behind the end of its month counts on into the next one. -/
def dayNumber (year month day : Nat) : Int :=
  let y : Int := if month ≤ 2 then (year : Int) - 1 else year
  let era := y / 400
  let yearOfEra := y % 400
  let monthFromMarch : Int := if month ≤ 2 then month + 9 else month - 3
  let dayOfYear := (153 * monthFromMarch + 2) / 5 + day - 1
  let dayOfEra := yearOfEra * 365 + yearOfEra / 4 - yearOfEra / 100 + dayOfYear
  era * 146097 + dayOfEra - 719468

/-- Year, month and day of a day number. -/
def civilOfDay (n : Int) : Int × Nat × Nat :=
  let z := n + 719468
  let era := z / 146097
  let dayOfEra := z % 146097
  let yearOfEra := (dayOfEra - dayOfEra / 1460 + dayOfEra / 36524 - dayOfEra / 146096) / 365
  let dayOfYear := dayOfEra - (365 * yearOfEra + yearOfEra / 4 - yearOfEra / 100)
  let monthFromMarch := (5 * dayOfYear + 2) / 153
  let day := dayOfYear - (153 * monthFromMarch + 2) / 5 + 1
  let month := if monthFromMarch < 10 then monthFromMarch + 3 else monthFromMarch - 9
  let year := yearOfEra + era * 400 + if month ≤ 2 then 1 else 0
  (year, month.toNat, day.toNat)

/-- `^\d{4}-\d{2}-\d{2}$`, in its three parts. -/
def dateParts (value : String) : Option (Nat × Nat × Nat) :=
  match value.toList with
  | [y₁, y₂, y₃, y₄, '-', m₁, m₂, '-', d₁, d₂] =>
      if [y₁, y₂, y₃, y₄, m₁, m₂, d₁, d₂].all Char.isDigit then
        some (natOfDigits [y₁, y₂, y₃, y₄], natOfDigits [m₁, m₂], natOfDigits [d₁, d₂])
      else none
  | _ => none

/-- The start of a day in UTC; a month or a day that no month has makes no date. -/
def storeDate (column value : String) : Except Failure Int :=
  match dateParts value with
  | none => .error (refusedBy column)
  | some (year, month, day) =>
      if 1 ≤ month ∧ month ≤ 12 ∧ 1 ≤ day ∧ day ≤ 31 then .ok (dayNumber year month day)
      else .error (refusedBy column)

/-- A date that may be left out; an empty text counts as left out. -/
def storeOptionalDate (column : String) : Option String → Except Failure (Option Int)
  | none => .ok none
  | some "" => .ok none
  | some value => (storeDate column value).map some

def formatCalendarDate (date : Int) : String :=
  let (year, month, day) := civilOfDay date
  s!"{year}-{padTwo month}-{padTwo day}"

/-- Digits with zeros on the left. -/
def padStart (width n : Nat) : String :=
  let cs := (toString n).toList
  String.ofList (List.replicate (width - cs.length) '0' ++ cs)

/-- `toISOString` of a time in milliseconds, for years of four digits. -/
def isoString (time : Int) : String :=
  let (year, month, day) := civilOfDay (time / 86400000)
  let rest := (time % 86400000).toNat
  let clock := s!"{padTwo (rest / 3600000)}:{padTwo (rest / 60000 % 60)}:{padTwo (rest / 1000 % 60)}"
  s!"{padStart 4 year.toNat}-{padTwo month}-{padTwo day}T{clock}.{padStart 3 (rest % 1000)}Z"

/-! ## Computed fields -/

/-- decimal.js keeps twenty significant digits of a result, half rounded away from zero. -/
def significant (n : Int) : Int :=
  let digits := (toString n.natAbs).length
  if digits ≤ 20 then n
  else
    let unit : Nat := 10 ^ (digits - 20)
    n.sign * ((n.natAbs + unit / 2) / unit * unit : Nat)

def Decimal.plus (a b : Decimal) : Decimal := significant (a + b)

def Decimal.minus (a b : Decimal) : Decimal := significant (a - b)

/-- The zeros behind the point before the first digit of `a / b`. -/
def leadingZeros : Nat → Nat → Nat → Nat
  | 0, _, _ => 0
  | fuel + 1, a, b => if b ≤ 10 * a then 0 else leadingZeros fuel (10 * a) b + 1

/-- The decimals that twenty significant digits of `a / b` leave. -/
def quotientDecimals (a b : Nat) : Nat :=
  if b ≤ a then 20 - (toString (a / b)).length
  else 20 + leadingZeros (toString b).length a b

def roundedQuotient (a b decimals : Nat) : Nat := (2 * a * 10 ^ decimals + b) / (2 * b)

/-- Cut zeros at the end of a text of decimals. -/
def dropEndZeros (cs : List Char) : List Char := (cs.reverse.dropWhile (· == '0')).reverse

/-- `a.div(b).toDecimalPlaces(8).toFixed()` -/
def ratioText (a b : Int) : String :=
  let kept := quotientDecimals a.natAbs b.natAbs
  let quotient := roundedQuotient a.natAbs b.natAbs kept
  let ratio := roundedQuotient quotient (10 ^ kept) 8
  let sign := if a.sign * b.sign < 0 ∧ ratio ≠ 0 then "-" else ""
  let fraction := dropEndZeros (padStart 8 (ratio % 10 ^ 8)).toList
  let point := if fraction.isEmpty then "" else "."
  s!"{sign}{ratio / 10 ^ 8}{point}{String.ofList fraction}"

structure ProjectCalcResult where
  totalInvoiced : String
  totalReceived : String
  totalSubcontractPaid : String
  remainingUninvoiced : String
  remainingUnreceived : String
  equity : String
  grossMargin : Option String
deriving DecidableEq

def sumAmounts (amounts : List Decimal) : Decimal := amounts.foldl Decimal.plus 0

def calcProjectAutoFields (tentativeAuditedAmount miscExpense : Option Decimal)
    (invoices receipts subcontractPayments : List Decimal) : ProjectCalcResult :=
  let tentativeAmount := tentativeAuditedAmount.getD 0
  let totalInvoiced := sumAmounts invoices
  let totalReceived := sumAmounts receipts
  let totalSubcontractPaid := (miscExpense.getD 0).plus (sumAmounts subcontractPayments)
  let equity := totalReceived.minus totalSubcontractPaid
  { totalInvoiced := totalInvoiced.toFixed
    totalReceived := totalReceived.toFixed
    totalSubcontractPaid := totalSubcontractPaid.toFixed
    remainingUninvoiced := (tentativeAmount.minus totalInvoiced).toFixed
    remainingUnreceived := (tentativeAmount.minus totalReceived).toFixed
    equity := equity.toFixed
    grossMargin := if totalReceived = 0 then none else some (ratioText equity totalReceived) }

end Wbme.Fin

import Wbme.Asset.Store

/-! # Quota periods

The cycle key of a submission time in Beijing time, and the advisory locks that
serialise submissions on one employee, consumable and cycle.
-/

namespace Wbme.Asset

open Lib

/-- Beijing is eight hours ahead; milliseconds. -/
def bjOffsetMs : Int := 8 * 60 * 60 * 1000

def msPerDay : Int := 24 * 60 * 60 * 1000

structure CivilDate where
  year : Int
  month : Int
  day : Int
deriving DecidableEq

/-- The proleptic Gregorian date of an instant in UTC, counted in eras of 400 years from
1 March of year 0. -/
def utcDate (ms : Int) : CivilDate :=
  let days := ms / msPerDay + 719468
  let era := days / 146097
  let dayOfEra := days % 146097
  let yearOfEra :=
    (dayOfEra - dayOfEra / 1460 + dayOfEra / 36524 - dayOfEra / 146096) / 365
  let dayOfYear := dayOfEra - (365 * yearOfEra + yearOfEra / 4 - yearOfEra / 100)
  let shifted := (5 * dayOfYear + 2) / 153
  let month := if shifted < 10 then shifted + 3 else shifted - 9
  { year := yearOfEra + era * 400 + (if month ≤ 2 then 1 else 0), month,
    day := dayOfYear - (153 * shifted + 2) / 5 + 1 }

/-- Two digits at least. -/
def padTwo (n : Int) : String := if n < 10 then s!"0{n}" else s!"{n}"

/-- The key of the cycle a submission falls into; the key names the cycle's first period. -/
def computeCycleKey (now : Int) (cycle : QuotaCycle) (resetDay : Nat) : String :=
  let bj := utcDate (now + bjOffsetMs)
  match cycle with
  | .year =>
      if bj.day < resetDay ∧ bj.month = 1 then s!"{bj.year - 1}" else s!"{bj.year}"
  | .quarter =>
      let firstMonth := (bj.month - 1) / 3 * 3 + 1
      if bj.day < resetDay ∧ bj.month = firstMonth then
        if firstMonth = 1 then s!"{bj.year - 1}-Q4" else s!"{bj.year}-Q{(firstMonth - 3 + 2) / 3}"
      else s!"{bj.year}-Q{(firstMonth + 2) / 3}"
  | .month =>
      if bj.day < resetDay then
        if bj.month = 1 then s!"{bj.year - 1}-12" else s!"{bj.year}-{padTwo (bj.month - 1)}"
      else s!"{bj.year}-{padTwo bj.month}"

example : utcDate 1786270496789 = ⟨2026, 8, 9⟩ := by decide

example : utcDate (-1) = ⟨1969, 12, 31⟩ := by decide

def QuotaKey.text (key : QuotaKey) : String :=
  s!"asset.quota.{key.userId}.{key.consumableId}." ++ key.cycleKey.getD "holding"

/-- Distinct keys in the fixed order of their texts. -/
def sortedQuotaKeys (keys : List QuotaKey) : List QuotaKey :=
  keys.dedup.insertionSort (fun a b => a.text ≤ b.text)

/-- Take the advisory locks one after another; each is held to the end of the transaction. -/
def acquireQuotaAdvisoryLocks (keys : List QuotaKey) : Tx Unit :=
  (sortedQuotaKeys keys).forM fun key => Txn.queryForUpdate (fun _ => [.quota key]) (fun _ => ())

end Wbme.Asset

import Wbme.Lib.Paging
import Wbme.Lib.Table
import Wbme.SnapshotSql
import Wbme.TableQuery.SqlText

/-! # The union of the operation logs

Five schemas keep an operation log of their own, each with its own sequence of ids. One view
stacks them, and the log page and the exports read that view.
-/

namespace Wbme.OperationLogs

open Lib TableQuery
open TableQuery.SqlText (TableSort Direction)

/-! ## Rows -/

/-- A row of an operation log, without its key and the columns of an idempotency record. -/
structure OperationLogRow where
  operatorId : Option Nat
  operatorName : Option String
  operatorDepartments : Option Json
  system : String
  feature : String
  actionType : String
  summary : String
  requestId : Option String
  createdAt : Int

inductive LogSchema where
  | base
  | backstage
  | asset
  | hr
  | fin
deriving DecidableEq

/-- The schemas in the order of the view. -/
def LogSchema.all : List LogSchema := [.base, .backstage, .asset, .hr, .fin]

abbrev LogStore := LogSchema → Table OperationLogRow

/-- A row of the view. The schema it comes from is no column of it. -/
structure UnionRow where
  schema : LogSchema
  id : Nat
  log : OperationLogRow

def schemaRows (store : LogStore) (schema : LogSchema) : List UnionRow :=
  (store schema).rows.map fun p => ⟨schema, p.1, p.2⟩

def operationLogsUnion (store : LogStore) : List UnionRow :=
  LogSchema.all.flatMap (schemaRows store)

theorem nodup_schemaRows (store : LogStore) (schema : LogSchema) :
    (schemaRows store schema).Nodup := by
  refine List.Pairwise.map _ ?_ (store schema).sorted
  intro p q hlt heq
  have := congrArg UnionRow.id heq
  simp only at this
  omega

/-- No row of the view is there twice: rows of one schema differ in their ids, and rows of two
schemas in where they come from. -/
theorem nodup_operationLogsUnion (store : LogStore) : (operationLogsUnion store).Nodup := by
  refine List.nodup_flatMap.mpr ⟨fun schema _ => nodup_schemaRows store schema, ?_⟩
  have hall : LogSchema.all.Nodup := by decide
  refine hall.imp ?_
  intro a b hab x ha hb
  obtain ⟨p, _, rfl⟩ := List.mem_map.mp ha
  obtain ⟨q, _, heq⟩ := List.mem_map.mp hb
  exact hab (congrArg UnionRow.schema heq).symm

def UnionRow.columns (r : UnionRow) : Row
  | "id" => some (.number r.id)
  | "operator_id" => r.log.operatorId.map fun id => .number id
  | "operator_name" => r.log.operatorName.map .text
  | "system" => some (.text r.log.system)
  | "feature" => some (.text r.log.feature)
  | "action_type" => some (.text r.log.actionType)
  | "summary" => some (.text r.log.summary)
  | "created_at" => some (.date r.log.createdAt)
  | _ => none

def operationLogTableFields : String → Option TableSqlField
  | "id" => some ⟨"id", .number⟩
  | "operatorId" => some ⟨"operator_id", .number⟩
  | "operatorName" => some ⟨"operator_name", .text⟩
  | "system" => some ⟨"system", .enum⟩
  | "feature" => some ⟨"feature", .text⟩
  | "actionType" => some ⟨"action_type", .enum⟩
  | "summary" => some ⟨"summary", .text⟩
  | "createdAt" => some ⟨"created_at", .date⟩
  | _ => none

/-! ## Sorting -/

structure OrderKey where
  column : String
  direction : Direction

def sortKey (sort : TableSort) : Except Failure OrderKey :=
  match operationLogTableFields sort.field with
  | none => .error (validationError s!"不支持筛选或排序字段 {sort.field}")
  | some field => .ok ⟨field.column, sort.direction⟩

/-- The columns to sort by: those of the sorts and the id behind them, or the time and the id
without any sort. -/
def orderKeys (sorts : List TableSort) : Except Failure (List OrderKey) := do
  match ← sorts.mapM sortKey with
  | [] => return [⟨"created_at", .desc⟩, ⟨"id", .desc⟩]
  | parts =>
      if sorts.any fun sort => sort.field == "id" then return parts
      else return parts ++ [⟨"id", .desc⟩]

/-- Where a value stands in the order of its column: numbers and times by size, texts by the
sort key of the collation, null behind all others. -/
def placeOf (collation : String → List Nat) : Option Value → ℕ ×ₗ ℚ ×ₗ List ℕ
  | some (.number q) => toLex (0, toLex (q, []))
  | some (.date instant) => toLex (1, toLex ((instant : ℚ), []))
  | some (.text s) => toLex (2, toLex (0, collation s))
  | none => toLex (3, toLex (0, []))

/-- Does a row come before another by one key? Descending, null comes first. -/
def OrderKey.lt (collation : String → List Nat) (key : OrderKey) (a b : UnionRow) : Bool :=
  match key.direction with
  | .asc => decide (placeOf collation (a.columns key.column) <
      placeOf collation (b.columns key.column))
  | .desc => decide (placeOf collation (b.columns key.column) <
      placeOf collation (a.columns key.column))

def orderLe (collation : String → List Nat) (keys : List OrderKey) : UnionRow → UnionRow → Bool :=
  Paging.lexLe (keys.map (OrderKey.lt collation))

theorem totalPreorder_orderLe (collation : String → List Nat) (keys : List OrderKey) :
    TotalPreorder (orderLe collation keys) := by
  refine Paging.totalPreorder_lexLe ?_
  intro lt hlt
  obtain ⟨key, _, rfl⟩ := List.mem_map.mp hlt
  have hkey := Paging.strictWeak_of_key fun r : UnionRow =>
    placeOf collation (r.columns key.column)
  unfold OrderKey.lt
  cases key.direction with
  | asc => exact hkey
  | desc => exact hkey.flip

end Wbme.OperationLogs

import Wbme.OperationLogs.Store
import Wbme.TableQuery.Agreement

/-! # Queries of the operation logs

The conditions of a query come from named parameters, from a filter tree and from the data
scope of the viewer. A named parameter gives way to a condition of the tree on the same
field, and conditions on the department are taken out of the tree, whatever group they are
in, because the view has no such column.
-/

namespace Wbme.OperationLogs

open Lib TableQuery
open TableQuery.SqlText (TableSort)

/-! ## Conditions -/

inductive LogParam where
  | value (v : Value)
  | ids (departmentIds : List Nat)

/-- A condition outside of the filter tree; parameters are numbered from one. -/
inductive LogPredicate where
  /-- `column operator $n` -/
  | compare (column : String) (operator : SqlComparison) (n : Nat)
  /-- `[NOT] EXISTS (SELECT 1 FROM jsonb_array_elements(operator_departments) …)` -/
  | departments (negated : Bool) (n : Nat)
  /-- `1 = 1` or `1 = 0` -/
  | constant (holds : Bool)

/-- Conditions with the parameters they bind, in the order in which they were added. -/
structure WhereClause where
  conditions : List LogPredicate
  params : List LogParam

def WhereClause.empty : WhereClause := ⟨[], []⟩

/-- Bind a parameter, and add the condition that names it. -/
def WhereClause.add (clause : WhereClause) (predicate : Nat → LogPredicate) (param : LogParam) :
    WhereClause :=
  ⟨clause.conditions ++ [predicate (clause.params.length + 1)], clause.params ++ [param]⟩

def WhereClause.addConstant (clause : WhereClause) (holds : Bool) : WhereClause :=
  ⟨clause.conditions ++ [.constant holds], clause.params⟩

/-! ## Requests -/

/-- What a list or an export is asked for. Filters and sorts are given as the JSON values that
their texts read as, `some none` for a text that is no JSON. -/
structure OperationLogQuery where
  system : Option String
  feature : Option String
  operatorId : Option Int
  departmentId : Option Nat
  actionType : Option String
  createdFrom : Option Int
  createdTo : Option Int
  filters : Option (Option Json)
  sorts : Option (Option Json)

/-- What the service reads besides the request and the logs. -/
structure LogEnvironment where
  /-- The function a guard has granted for the request, with its data scope. -/
  granted : Option (Option DataScope)
  /-- The user of the request. -/
  contextUserId : Option Nat
  /-- The departments at or below one, and those at or below a user's own. -/
  closureOf : Nat → List Nat
  closureOfUser : Nat → List Nat
  now : Int
  maxRows : Nat
  folding : CaseFolding
  textToInt : String → Option Int
  collation : String → List Nat

/-! ## Departments -/

structure DepartmentFilterCondition where
  operator : TableOperator
  value : String

mutual

/-- A tree without its conditions on the department; a group that loses all its members goes
with them. -/
def transformNode : TableFilterTreeNode → Option TableFilterTreeNode
  | .condition c => if c.field = "departmentId" then none else some (.condition c)
  | .group logic conditions =>
      match transformNodes conditions with
      | [] => none
      | kept => some (.group logic kept)

def transformNodes : List TableFilterTreeNode → List TableFilterTreeNode
  | [] => []
  | node :: nodes => (transformNode node).toList ++ transformNodes nodes

end

def conditionJson (c : TableFilterCondition) : Json :=
  .obj ([("field", .str c.field), ("operator", .str c.operator.name), ("value", .str c.value)] ++
    (c.valueEnd.map fun valueEnd => ("valueEnd", .str valueEnd)).toList)

def logicName : Logic → String
  | .and => "AND"
  | .or => "OR"

mutual

def nodeJson : TableFilterTreeNode → Json
  | .condition c => conditionJson c
  | .group logic conditions =>
      .obj [("logic", .str (logicName logic)), ("conditions", .arr (nodesJson conditions))]

def nodesJson : List TableFilterTreeNode → List Json
  | [] => []
  | node :: nodes => nodeJson node :: nodesJson nodes

end

def extractDepartmentConditions (tree : Option TableFilterTreeNode) :
    List DepartmentFilterCondition × Option (Option Json) :=
  match tree with
  | none => ([], none)
  | some tree =>
      (tree.leaves.filterMap fun c =>
          if c.field = "departmentId" then some ⟨c.operator, c.value⟩ else none,
        (transformNode tree).map fun kept => some (nodeJson kept))

/-- `/^\d+$/` -/
def isDigits (value : String) : Bool := !value.isEmpty && value.toList.all Char.isDigit

/-- Keep the logs of a department and of those below it, or leave them out. -/
def addDepartmentCondition (env : LogEnvironment) (clause : WhereClause)
    (condition : DepartmentFilterCondition) : Except Failure WhereClause :=
  if condition.operator ≠ .equals ∧ condition.operator ≠ .notEquals then
    .error (validationError s!"字段 departmentId 不支持 {condition.operator.name} 操作符")
  else if !isDigits condition.value then
    .error (validationError "部门筛选值必须为正整数")
  else
    let equal := condition.operator = .equals
    match env.closureOf (digitsValue condition.value.toList) with
    | [] => .ok (clause.addConstant (!equal))
    | closureIds => .ok (clause.add (.departments (!equal)) (.ids closureIds))

/-- The data scope of the viewer. A viewer without departments sees nothing; a scope other than
the department's adds no condition. -/
def buildDataScopeFilter (env : LogEnvironment) (clause : WhereClause) : WhereClause :=
  match env.granted, env.contextUserId with
  | some (some .department), some userId =>
      match env.closureOfUser userId with
      | [] => clause.addConstant false
      | closureIds => clause.add (.departments false) (.ids closureIds)
  | _, _ => clause

/-! ## The statement -/

/-- A named parameter that is given, and that no condition of the tree stands in for. -/
def addNamed (structuredFields : List String) (field column : String) (operator : SqlComparison)
    (value : Option Value) (clause : WhereClause) : WhereClause :=
  match value with
  | none => clause
  | some v =>
      if field ∈ structuredFields then clause else clause.add (.compare column operator) (.value v)

/-- A text parameter; an empty one counts as absent. -/
def textParam (value : Option String) : Option Value :=
  (value.filter fun s => s ≠ "").map .text

/-- The named parameters; the times of the request have no field of the tree. -/
def namedConditions (query : OperationLogQuery) (structuredFields : List String) : WhereClause :=
  let clause := addNamed structuredFields "operatorId" "operator_id" .eq
    (query.operatorId.map fun id => .number id) .empty
  let clause := addNamed structuredFields "system" "system" .eq (textParam query.system) clause
  let clause := addNamed structuredFields "feature" "feature" .eq (textParam query.feature) clause
  let clause := addNamed structuredFields "actionType" "action_type" .eq
    (textParam query.actionType) clause
  let clause := addNamed [] "from" "created_at" .ge (query.createdFrom.map .date) clause
  addNamed [] "to" "created_at" .le (query.createdTo.map .date) clause

def namedDepartment (query : OperationLogQuery) (structuredFields : List String) :
    List DepartmentFilterCondition :=
  match query.departmentId with
  | none => []
  | some id =>
      if "departmentId" ∈ structuredFields then [] else [⟨.equals, toString id⟩]

/-- The conditions outside of the tree, and the filters that are left to compile. -/
def buildWhereClause (env : LogEnvironment) (query : OperationLogQuery) (mineOnly : Bool) :
    Except Failure (WhereClause × Option (Option Json)) := do
  let tree ← parseFilters query.filters
  let structuredFields := (tree.elim [] TableFilterTreeNode.leaves).map (·.field)
  let (departmentConditions, filters) := extractDepartmentConditions tree
  let clause ← (departmentConditions ++ namedDepartment query structuredFields).foldlM
    (addDepartmentCondition env) (namedConditions query structuredFields)
  return (if mineOnly then clause else buildDataScopeFilter env clause, filters)

/-- A statement that is ready to run. -/
structure LogStatement where
  clause : WhereClause
  table : TableSqlQuery
  order : List OrderKey

def buildStatement (env : LogEnvironment) (query : OperationLogQuery) :
    Except Failure LogStatement := do
  let (clause, filters) ← buildWhereClause env query false
  let sorts ← SqlText.parseSorts query.sorts
  let table ← buildTableSqlQuery env.now clause.params.length operationLogTableFields filters
  let order ← orderKeys sorts
  return ⟨clause, table, order⟩

/-! ## Evaluation -/

def someDepartment (textToInt : String → Option Int) (ids : List Nat) :
    List Json → Except String Bool
  | [] => .ok false
  | element :: elements =>
      match castId textToInt element with
      | .failed => .error "invalid input syntax for type integer"
      | .id n => if inClosure ids n then .ok true else someDepartment textToInt ids elements
      | .null => someDepartment textToInt ids elements

/-- Some department of the operator at the time is among the ids. -/
def existsDepartment (textToInt : String → Option Int) (ids : List Nat) :
    Option Json → Except String Bool
  | none => .ok false
  | some (.arr elements) => someDepartment textToInt ids elements
  | some _ => .error "cannot extract elements from a scalar"

def LogPredicate.eval (env : LogEnvironment) (params : List LogParam) (r : UnionRow) :
    LogPredicate → Except String (Option Bool)
  | .compare column operator n =>
      match params[n - 1]? with
      | some (.value v) => evalCompare operator (r.columns column) (some v)
      | _ => .error s!"there is no parameter {n}"
  | .departments negated n =>
      match params[n - 1]? with
      | some (.ids ids) =>
          (existsDepartment env.textToInt ids r.log.operatorDepartments).map fun b =>
            some (b != negated)
      | _ => .error s!"there is no parameter {n}"
  | .constant holds => .ok (some holds)

/-- Conditions are tried in order, up to the first that does not keep the row. -/
def allKept : List Outcome → Outcome
  | [] => .kept
  | .kept :: outcomes => allKept outcomes
  | outcome :: _ => outcome

def LogStatement.outcome (env : LogEnvironment) (statement : LogStatement) (r : UnionRow) :
    Outcome :=
  allKept ((statement.clause.conditions.map fun p =>
      outcomeOf (p.eval env statement.clause.params r)) ++
    [statement.table.outcome env.folding statement.clause.params.length r.columns])

/-- Why a query has no answer: an exception of the service, or an error of the database. -/
inductive QueryFailure where
  | exception (failure : Failure)
  | database

def LogStatement.select (env : LogEnvironment) (statement : LogStatement)
    (rows : List UnionRow) : Except QueryFailure (List UnionRow) :=
  if rows.any fun r => statement.outcome env r == .refused then .error .database
  else .ok (rows.filter fun r => statement.outcome env r == .kept)

/-- The rows of the view that match, in no particular order. -/
def matching (env : LogEnvironment) (statement : LogStatement) (store : LogStore) :
    Except QueryFailure (List UnionRow) :=
  statement.select env (operationLogsUnion store)

def liftFailure {α : Type} (result : Except Failure α) : Except QueryFailure α :=
  result.mapError .exception

/-! ## List and export -/

/-- How the database orders the rows of one query. -/
abbrev RowChoice := List UnionRow → List UnionRow

def list (env : LogEnvironment) (query : OperationLogQuery) (page pageSize : Nat)
    (store : LogStore) (choice : RowChoice) : Except QueryFailure (List UnionRow × Nat) := do
  let statement ← liftFailure (buildStatement env query)
  let rows ← matching env statement store
  return (Paging.page pageSize (page - 1) (choice rows), rows.length)

def mineQuery (operatorId : Nat) (filters sorts : Option (Option Json)) : OperationLogQuery :=
  ⟨none, none, some operatorId, none, none, none, none, filters, sorts⟩

def listMine (env : LogEnvironment) (operatorId : Nat) (filters sorts : Option (Option Json))
    (page pageSize : Nat) (store : LogStore) (choice : RowChoice) :
    Except QueryFailure (List UnionRow × Nat) :=
  list env (mineQuery operatorId filters sorts) page pageSize store choice

def batchSize : Nat := 500

def fetchBatches (rows : List UnionRow) (total : Nat) (choice : Nat → RowChoice) (offset : Nat) :
    List UnionRow :=
  if offset < total then
    (((choice offset) rows).drop offset).take batchSize ++
      fetchBatches rows total choice (offset + batchSize)
  else []
termination_by total - offset
decreasing_by
  have : 0 < batchSize := by decide
  omega

/-- The rows that an export writes. All its queries read one snapshot. -/
def export_ (env : LogEnvironment) (query : OperationLogQuery) (store : LogStore)
    (choice : Nat → RowChoice) : Except QueryFailure (List UnionRow) := do
  let statement ← liftFailure (buildStatement env query)
  let rows ← matching env statement store
  let total := rows.length
  if env.maxRows < total then
    throw (.exception (.business .rowLimitExceeded
      [("actualRows", toString total), ("limit", toString env.maxRows)]))
  else return fetchBatches rows total choice 0

def exportMine (env : LogEnvironment) (operatorId : Nat) (filters sorts : Option (Option Json))
    (store : LogStore) (choice : Nat → RowChoice) : Except QueryFailure (List UnionRow) :=
  export_ env (mineQuery operatorId filters sorts) store choice

end Wbme.OperationLogs

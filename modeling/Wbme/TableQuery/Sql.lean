import Wbme.Lib.Like
import Wbme.TableQuery.Filters

/-!
# Table filters as SQL

The compiler of a filter tree into a parameterised predicate, and what the database makes
of such a predicate on a row: three-valued logic over columns that may be `NULL`, and
`ILIKE`, which folds the case of text and pattern and reads wildcards in the pattern.
-/

namespace Wbme.TableQuery

open Lib

/-! ## Predicates -/

inductive SqlOperand
  | column (name : String)
  /-- `$n` -/
  | param (n : Nat)
  | literal (s : String)
  /-- `a || b` -/
  | concat (a b : SqlOperand)

inductive SqlComparison
  | eq
  | ne
  | gt
  | ge
  | lt
  | le

inductive SqlPredicate
  | isNull (a : SqlOperand)
  | isNotNull (a : SqlOperand)
  | compare (operator : SqlComparison) (a b : SqlOperand)
  | ilike (a pattern : SqlOperand)
  | notIlike (a pattern : SqlOperand)
  | and (a b : SqlPredicate)
  | or (a b : SqlPredicate)
  /-- `()`, which is not a predicate -/
  | emptyParens

def SqlPredicate.join (logic : Logic) : List SqlPredicate → SqlPredicate
  | [] => .emptyParens
  | [p] => p
  | p :: ps =>
      match logic with
      | .and => .and p (SqlPredicate.join logic ps)
      | .or => .or p (SqlPredicate.join logic ps)

/-! ## Evaluation -/

/-- The values of the columns of a row, `none` for `NULL`. -/
abbrev Row := String → Option Value

/-- How the case of a letter is folded: wild letters have none, no other becomes wild, and
folding twice changes nothing more. -/
structure CaseFolding where
  lower : Char → Char
  lower_lower : ∀ c, lower (lower c) = lower c
  lower_of_wild : ∀ c, LikeToken.isWild c = true → lower c = c
  wild_of_lower : ∀ c, LikeToken.isWild (lower c) = true → LikeToken.isWild c = true
  lower_x : lower 'x' = 'x'

def CaseFolding.fold (folding : CaseFolding) (s : String) : List Char :=
  s.toList.map folding.lower

/-- What a statement is evaluated in: its parameters, numbered from behind those that other
parts of it bind. -/
structure SqlContext where
  folding : CaseFolding
  parameterOffset : Nat
  params : List Value

def SqlOperand.eval (context : SqlContext) (row : Row) : SqlOperand → Except String (Option Value)
  | .column name => .ok (row name)
  | .param n =>
      match context.params[n - context.parameterOffset - 1]? with
      | some v => .ok (some v)
      | none => .error s!"there is no parameter {n}"
  | .literal s => .ok (some (.text s))
  | .concat a b => do
      match ← a.eval context row, ← b.eval context row with
      | some (.text s), some (.text t) => .ok (some (.text (s ++ t)))
      | none, _ => .ok none
      | _, none => .ok none
      | _, _ => .error "operator does not exist"

def SqlComparison.holds {α : Type} [LinearOrder α] (a b : α) : SqlComparison → Bool
  | .eq => a = b
  | .ne => a ≠ b
  | .gt => a > b
  | .ge => a ≥ b
  | .lt => a < b
  | .le => a ≤ b

/-- A comparison of two values of one type; nothing is known about `NULL`. -/
def evalCompare (operator : SqlComparison) :
    Option Value → Option Value → Except String (Option Bool)
  | some (.number a), some (.number b) => .ok (some (operator.holds a b))
  | some (.date a), some (.date b) => .ok (some (operator.holds a b))
  | some (.text a), some (.text b) =>
      match operator with
      | .eq => .ok (some (a = b))
      | .ne => .ok (some (a ≠ b))
      | _ => .error "operator does not exist"
  | none, _ => .ok none
  | _, none => .ok none
  | _, _ => .error "operator does not exist"

def evalIlike (folding : CaseFolding) : Option Value → Option Value → Except String (Option Bool)
  | some (.text s), some (.text pattern) =>
      match LikeToken.fits (LikeToken.read (folding.fold pattern)) (folding.fold s) with
      | some b => .ok (some b)
      | none => .error "LIKE pattern must not end with escape character"
  | none, _ => .ok none
  | _, none => .ok none
  | _, _ => .error "operator does not exist"

def and3 : Option Bool → Option Bool → Option Bool
  | some false, _ => some false
  | _, some false => some false
  | some true, some true => some true
  | _, _ => none

def or3 : Option Bool → Option Bool → Option Bool
  | some true, _ => some true
  | _, some true => some true
  | some false, some false => some false
  | _, _ => none

def SqlPredicate.eval (context : SqlContext) (row : Row) :
    SqlPredicate → Except String (Option Bool)
  | .isNull a => do return some (← a.eval context row).isNone
  | .isNotNull a => do return some (← a.eval context row).isSome
  | .compare operator a b => do
      evalCompare operator (← a.eval context row) (← b.eval context row)
  | .ilike a pattern => do
      evalIlike context.folding (← a.eval context row) (← pattern.eval context row)
  | .notIlike a pattern => do
      return (← evalIlike context.folding (← a.eval context row)
        (← pattern.eval context row)).map (!·)
  | .and a b => do return and3 (← a.eval context row) (← b.eval context row)
  | .or a b => do return or3 (← a.eval context row) (← b.eval context row)
  | .emptyParens => .error "syntax error at or near \")\""

/-! ## The compiler -/

/-- A field that a resource maps to a column expression. -/
structure TableSqlField where
  column : String
  type : FieldType

/-- Compilation collects parameters and may refuse a condition. -/
abbrev Compile := StateT (List Value) (Except Failure)

/-- Register a parameter and return its placeholder. -/
def nextParam (parameterOffset : Nat) (value : Value) : Compile SqlOperand := fun params =>
  .ok (.param (parameterOffset + (params.length + 1)), params ++ [value])

def refuse {α : Type} (message : String) : Compile α := fun _ => .error (validationError message)

def readScalar (value : String) (type : FieldType) : Compile Value := fun params =>
  (scalarValue value type).map (·, params)

def unsupported {α : Type} (condition : TableFilterCondition) : Compile α :=
  refuse s!"字段 {condition.field} 不支持 {condition.operator.name} 操作符"

/-- The comparison that a number or time field offers under an operator. -/
def operationSql : TableOperator → Option SqlComparison
  | .equals => some .eq
  | .notEquals => some .ne
  | .greaterThan => some .gt
  | .greaterThanOrEqual => some .ge
  | .lessThan => some .lt
  | .lessThanOrEqual => some .le
  | _ => none

def valueEndOf (condition : TableFilterCondition) : Option String :=
  condition.valueEnd.filter (· ≠ "")

def compileText (condition : TableFilterCondition) (column parameter : SqlOperand) :
    Compile SqlPredicate :=
  match condition.operator with
  | .equals => return .ilike column parameter
  | .notEquals => return .notIlike column parameter
  | .contains =>
      return .ilike column (.concat (.concat (.literal "%") parameter) (.literal "%"))
  | .notContains =>
      return .notIlike column (.concat (.concat (.literal "%") parameter) (.literal "%"))
  | .startsWith => return .ilike column (.concat parameter (.literal "%"))
  | .endsWith => return .ilike column (.concat (.literal "%") parameter)
  | _ => unsupported condition

def compileEnum (condition : TableFilterCondition) (column parameter : SqlOperand) :
    Compile SqlPredicate :=
  match condition.operator with
  | .equals => return .compare .eq column parameter
  | .notEquals => return .compare .ne column parameter
  | _ => unsupported condition

def compileNumber (parameterOffset : Nat) (type : FieldType) (condition : TableFilterCondition)
    (column parameter : SqlOperand) (value : Value) : Compile SqlPredicate :=
  match operationSql condition.operator with
  | some operator => return .compare operator column parameter
  | none =>
      if condition.operator = .between then
        match valueEndOf condition with
        | none => refuse s!"字段 {condition.field} 缺少区间结束值"
        | some valueEnd => do
            match value, ← readScalar valueEnd type with
            | .number start, .number last =>
                if last < start then
                  refuse s!"字段 {condition.field} 的数值区间不合法"
                else do
                  let upper ← nextParam parameterOffset (.number last)
                  return .and (.compare .ge column parameter) (.compare .le column upper)
            | _, _ => refuse s!"字段 {condition.field} 的数值区间不合法"
      else
        unsupported condition

def compileDate (parameterOffset : Nat) (condition : TableFilterCondition)
    (column parameter : SqlOperand) (value : Value) : Compile SqlPredicate :=
  match value with
  | .date start =>
      match condition.operator with
      | .equals => do
          let upper ← nextParam parameterOffset (.date (nextDay start))
          return .and (.compare .ge column parameter) (.compare .lt column upper)
      | .notEquals => do
          let upper ← nextParam parameterOffset (.date (nextDay start))
          return .or (.compare .lt column parameter) (.compare .ge column upper)
      | .before => return .compare .lt column parameter
      | .after => do
          let upper ← nextParam parameterOffset (.date (nextDay start))
          return .compare .ge column upper
      | .between =>
          match valueEndOf condition with
          | none => refuse s!"字段 {condition.field} 缺少区间结束值"
          | some valueEnd => do
              match ← readScalar valueEnd .date with
              | .date last =>
                  if last < start then
                    refuse s!"字段 {condition.field} 的日期区间不合法"
                  else do
                    let upper ← nextParam parameterOffset (.date (nextDay last))
                    return .and (.compare .ge column parameter) (.compare .lt column upper)
              | _ => refuse s!"字段 {condition.field} 的日期区间不合法"
      | _ => unsupported condition
  | _ => refuse s!"字段 {condition.field} 必须是日期"

def compileValueless (type : FieldType) (operator : TableOperator) (column : SqlOperand) :
    SqlPredicate :=
  if type = .text then
    if operator = .isEmpty then .or (.isNull column) (.compare .eq column (.literal ""))
    else .and (.isNotNull column) (.compare .ne column (.literal ""))
  else if operator = .isEmpty then .isNull column
  else .isNotNull column

def compileSqlCondition (now : Int) (parameterOffset : Nat)
    (fields : String → Option TableSqlField) (condition : TableFilterCondition) :
    Compile SqlPredicate := do
  match fields condition.field with
  | none => refuse s!"不支持筛选或排序字段 {condition.field}"
  | some definition =>
    let column := SqlOperand.column definition.column
    if valuelessOperators.contains condition.operator then
      return compileValueless definition.type condition.operator column
    else if relativeDateOperators.contains condition.operator then
      if definition.type ≠ .date then
        unsupported condition
      else do
        let (gte, lt) ← fun params =>
          (relativeDateRange condition.operator now).map (·, params)
        let lower ← nextParam parameterOffset (.date gte)
        let upper ← nextParam parameterOffset (.date lt)
        return .and (.compare .ge column lower) (.compare .lt column upper)
    else do
      let value ← readScalar condition.value definition.type
      let parameter ← nextParam parameterOffset value
      match definition.type with
      | .text => compileText condition column parameter
      | .enum => compileEnum condition column parameter
      | .date => compileDate parameterOffset condition column parameter value
      | type => compileNumber parameterOffset type condition column parameter value

mutual

def compileNode (now : Int) (parameterOffset : Nat) (fields : String → Option TableSqlField) :
    TableFilterTreeNode → Compile SqlPredicate
  | .group logic conditions => do
      return .join logic (← compileNodes now parameterOffset fields conditions)
  | .condition c => compileSqlCondition now parameterOffset fields c

def compileNodes (now : Int) (parameterOffset : Nat) (fields : String → Option TableSqlField) :
    List TableFilterTreeNode → Compile (List SqlPredicate)
  | [] => return []
  | node :: nodes => do
      return (← compileNode now parameterOffset fields node) ::
        (← compileNodes now parameterOffset fields nodes)

end

structure TableSqlQuery where
  whereSql : Option SqlPredicate
  params : List Value

def buildTableSqlQuery (now : Int) (parameterOffset : Nat)
    (fields : String → Option TableSqlField) (filters : Option (Option Json)) :
    Except Failure TableSqlQuery := do
  match ← parseFilters filters with
  | none => return ⟨none, []⟩
  | some tree => do
      let (whereSql, params) ← (compileNode now parameterOffset fields tree).run []
      return ⟨some whereSql, params⟩

/-! ## Keeping rows -/

/-- What becomes of a row under a filter. A refused filter keeps no row. -/
inductive Outcome
  | refused
  | dropped
  | kept
  deriving DecidableEq

/-- A row is kept if the predicate is true of it, not if it is false or unknown. -/
def TableSqlQuery.outcome (folding : CaseFolding) (parameterOffset : Nat) (row : Row)
    (query : TableSqlQuery) : Outcome :=
  match query.whereSql with
  | none => .kept
  | some predicate =>
      match predicate.eval ⟨folding, parameterOffset, query.params⟩ row with
      | .ok (some true) => .kept
      | .ok _ => .dropped
      | .error _ => .refused

def sqlOutcome (folding : CaseFolding) (now : Int) (parameterOffset : Nat)
    (fields : String → Option TableSqlField) (filters : Option (Option Json)) (row : Row) :
    Outcome :=
  match buildTableSqlQuery now parameterOffset fields filters with
  | .ok query => query.outcome folding parameterOffset row
  | .error _ => .refused

end Wbme.TableQuery

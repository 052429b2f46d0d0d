import Wbme.TableQuery.Sql

/-!
# Table filters in memory

The same filter trees, interpreted on rows that are already in memory.
-/

namespace Wbme.TableQuery

/-- A field that a resource reads from a row, `none` for `null`. -/
structure TableInMemoryField where
  type : FieldType
  value : Row → Option Value

/-- `String(actual ?? '')` for a field that holds text. -/
def stringOf : Option Value → List Char
  | some (.text s) => s.toList
  | _ => []

/-- `typeof actual === 'number' ? actual : Number(actual)`: of `null` that is zero. A field
that holds numbers holds finite ones. -/
def numberOf : Option Value → Option ℚ
  | some (.number q) => some q
  | none => some 0
  | _ => none

def memoryDate : Option Value → Option Int
  | some (.date instant) => some instant
  | some (.text s) =>
      match scalarValue s .date with
      | .ok (.date instant) => some instant
      | _ => none
  | _ => none

def unsupportedOperator {α : Type} (condition : TableFilterCondition) : Except Failure α :=
  .error (validationError s!"字段 {condition.field} 不支持 {condition.operator.name} 操作符")

def matchesText (folding : CaseFolding) (condition : TableFilterCondition)
    (actual expected : Option Value) : Except Failure Bool :=
  let left := (stringOf actual).map folding.lower
  let right := (stringOf expected).map folding.lower
  match condition.operator with
  | .equals => return left = right
  | .notEquals => return left ≠ right
  | .contains => return right <:+: left
  | .notContains => return ¬ right <:+: left
  | .startsWith => return right <+: left
  | .endsWith => return right <:+ left
  | _ => unsupportedOperator condition

def matchesEnum (condition : TableFilterCondition) (actual expected : Option Value) :
    Except Failure Bool :=
  match condition.operator with
  | .equals => return stringOf actual = stringOf expected
  | .notEquals => return stringOf actual ≠ stringOf expected
  | _ => unsupportedOperator condition

def matchesNumber (type : FieldType) (condition : TableFilterCondition) (actual : Option Value)
    (expected : Value) : Except Failure Bool :=
  match numberOf actual, expected with
  | some left, .number value =>
      match operationSql condition.operator with
      | some operator => return operator.holds left value
      | none =>
          if condition.operator = .between then
            match valueEndOf condition with
            | none => .error (validationError s!"字段 {condition.field} 缺少区间结束值")
            | some valueEnd => do
                match ← scalarValue valueEnd type with
                | .number last =>
                    if last < value then
                      .error (validationError s!"字段 {condition.field} 的数值区间不合法")
                    else
                      return left ≥ value ∧ left ≤ last
                | _ => .error (validationError s!"字段 {condition.field} 的数值区间不合法")
          else
            unsupportedOperator condition
  | _, _ => return false

def matchesDate (condition : TableFilterCondition) (actual : Option Value) (expected : Value) :
    Except Failure Bool :=
  match memoryDate actual, expected with
  | some left, .date start =>
      match condition.operator with
      | .equals => return left ≥ start ∧ left < nextDay start
      | .notEquals => return left < start ∨ left ≥ nextDay start
      | .before => return left < start
      | .after => return left ≥ nextDay start
      | .between =>
          match valueEndOf condition with
          | none => .error (validationError s!"字段 {condition.field} 缺少区间结束值")
          | some valueEnd => do
              match ← scalarValue valueEnd .date with
              | .date last =>
                  if last < start then
                    .error (validationError s!"字段 {condition.field} 的日期区间不合法")
                  else
                    return left ≥ start ∧ left < nextDay last
              | _ => .error (validationError s!"字段 {condition.field} 的日期区间不合法")
      | _ => unsupportedOperator condition
  -- a row without a date is dropped before the operator is looked at
  | _, _ => return false

def matchesMemoryCondition (folding : CaseFolding) (now : Int) (row : Row)
    (condition : TableFilterCondition) (fields : String → Option TableInMemoryField) :
    Except Failure Bool := do
  match fields condition.field with
  | none => .error (validationError s!"不支持筛选或排序字段 {condition.field}")
  | some definition =>
    let actual := definition.value row
    if valuelessOperators.contains condition.operator then
      let isEmpty : Bool := if definition.type = .text then
          actual = none ∨ actual = some (.text "")
        else actual = none
      return if condition.operator = .isEmpty then isEmpty else !isEmpty
    else if relativeDateOperators.contains condition.operator then
      if definition.type ≠ .date then
        unsupportedOperator condition
      else
        match memoryDate actual with
        | none => return false
        | some left => do
            let (gte, lt) ← relativeDateRange condition.operator now
            return left ≥ gte ∧ left < lt
    else do
      let expected ← scalarValue condition.value definition.type
      match definition.type with
      | .text => matchesText folding condition actual (some expected)
      | .enum => matchesEnum condition actual (some expected)
      | .date => matchesDate condition actual expected
      | type => matchesNumber type condition actual expected

mutual

/-- All members of a group are looked at before they are joined. -/
def matchesNode (folding : CaseFolding) (now : Int)
    (fields : String → Option TableInMemoryField) (row : Row) :
    TableFilterTreeNode → Except Failure Bool
  | .group logic conditions => do
      let found ← matchesNodes folding now fields row conditions
      match logic with
      | .and => return found.all id
      | .or => return found.any id
  | .condition c => matchesMemoryCondition folding now row c fields

def matchesNodes (folding : CaseFolding) (now : Int)
    (fields : String → Option TableInMemoryField) (row : Row) :
    List TableFilterTreeNode → Except Failure (List Bool)
  | [] => return []
  | node :: nodes => do
      return (← matchesNode folding now fields row node) ::
        (← matchesNodes folding now fields row nodes)

end

def filterTableRows (folding : CaseFolding) (now : Int) (rows : List Row)
    (filters : Option (Option Json)) (fields : String → Option TableInMemoryField) :
    Except Failure (List Row) := do
  match ← parseFilters filters with
  | none => return rows
  | some tree => rows.filterM (fun row => matchesNode folding now fields row tree)

def memoryOutcome (folding : CaseFolding) (now : Int)
    (fields : String → Option TableInMemoryField) (filters : Option (Option Json)) (row : Row) :
    Outcome :=
  match filterTableRows folding now [row] filters fields with
  | .ok [] => .dropped
  | .ok _ => .kept
  | .error _ => .refused

end Wbme.TableQuery

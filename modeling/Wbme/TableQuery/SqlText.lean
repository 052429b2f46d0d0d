import Wbme.TableQuery.Sql

/-!
# Table filters as SQL text

The text that the compiler returns, piece by piece: column expressions, placeholders and
the words between them. Fields may have a predicate of their own in place of a column, and
what a request names is looked up in plain objects, which inherit some members.
-/

namespace Wbme.TableQuery.SqlText

/-! ## Text -/

/-- A piece of SQL text. -/
inductive SqlToken
  | column (expression : String)
  /-- `$n` -/
  | param (n : Nat)
  | raw (text : String)
  deriving DecidableEq

def SqlToken.render : SqlToken → String
  | .column expression => expression
  | .param n => s!"${n}"
  | .raw text => text

/-- The string that the pieces make. -/
def render (text : List SqlToken) : String := String.join (text.map SqlToken.render)

def SqlToken.placeholder? : SqlToken → Option Nat
  | .param n => some n
  | _ => none

def placeholders (text : List SqlToken) : List Nat := text.filterMap SqlToken.placeholder?

@[simp] theorem placeholders_nil : placeholders [] = [] := rfl

@[simp] theorem placeholders_column (e : String) (text : List SqlToken) :
    placeholders (.column e :: text) = placeholders text := rfl

@[simp] theorem placeholders_param (n : Nat) (text : List SqlToken) :
    placeholders (.param n :: text) = n :: placeholders text := rfl

@[simp] theorem placeholders_raw (s : String) (text : List SqlToken) :
    placeholders (.raw s :: text) = placeholders text := rfl

@[simp] theorem placeholders_append (a b : List SqlToken) :
    placeholders (a ++ b) = placeholders a ++ placeholders b := List.filterMap_append

/-- Register a parameter and return its placeholder. -/
def nextParam (parameterOffset : Nat) (value : Value) : Compile SqlToken := fun params =>
  .ok (.param (parameterOffset + (params.length + 1)), params ++ [value])

/-! ## Predicates of a field's own -/

structure SqlConditionContext where
  condition : TableFilterCondition
  /-- `none` for an operator that takes no value -/
  value : Option Value
  valueEnd : Option Value

/-- What a field's own compiler does: register parameters, and then return a text, return
nothing, or throw. -/
inductive SqlCompiler
  | failed (failure : Failure)
  | unsupported
  | done (text : List SqlToken)
  | nextParam (value : Value) (k : SqlToken → SqlCompiler)

def SqlCompiler.run (parameterOffset : Nat) : SqlCompiler → Compile (Option (List SqlToken))
  | .failed failure => fun _ => .error failure
  | .unsupported => fun params => .ok (none, params)
  | .done text => fun params => .ok (some text, params)
  | .nextParam value k => fun params =>
      (k (.param (parameterOffset + (params.length + 1)))).run parameterOffset (params ++ [value])

/-- The text has every placeholder that was registered for it, and no other. -/
def SqlCompiler.Mentions (compiler : SqlCompiler) : Prop :=
  ∀ parameterOffset params text params',
    compiler.run parameterOffset params = .ok (some text, params') →
    ∀ n, n ∈ placeholders text ↔
      parameterOffset + params.length < n ∧ n ≤ parameterOffset + params'.length

/-- A predicate that a resource writes for a field; it uses the parameters it registers. -/
structure SqlFieldPredicate where
  type : FieldType
  compile : SqlConditionContext → SqlCompiler
  mentions : ∀ context, (compile context).Mentions

inductive TableSqlField
  | column (expression : String) (type : FieldType)
  | predicate (own : SqlFieldPredicate)

/-! ## Plain objects -/

/-- The members that every plain object inherits, each as it reads in a text. -/
def objectPrototype : List (String × String) := [
  ("constructor", "function Object() \x7b [native code] \x7d"),
  ("__defineGetter__", "function __defineGetter__() \x7b [native code] \x7d"),
  ("__defineSetter__", "function __defineSetter__() \x7b [native code] \x7d"),
  ("hasOwnProperty", "function hasOwnProperty() \x7b [native code] \x7d"),
  ("__lookupGetter__", "function __lookupGetter__() \x7b [native code] \x7d"),
  ("__lookupSetter__", "function __lookupSetter__() \x7b [native code] \x7d"),
  ("isPrototypeOf", "function isPrototypeOf() \x7b [native code] \x7d"),
  ("propertyIsEnumerable", "function propertyIsEnumerable() \x7b [native code] \x7d"),
  ("toString", "function toString() \x7b [native code] \x7d"),
  ("valueOf", "function valueOf() \x7b [native code] \x7d"),
  ("__proto__", "[object Object]"),
  ("toLocaleString", "function toLocaleString() \x7b [native code] \x7d")]

def inherited? (name : String) : Option String :=
  (objectPrototype.find? (fun member => member.1 == name)).map (·.2)

/-- What `fields[name]` has under the names that the compiler reads. An inherited member has
none of them. -/
structure Definition where
  column : Option String
  type : Option FieldType
  compile : Option (SqlConditionContext → SqlCompiler)

def TableSqlField.definition : TableSqlField → Definition
  | .column expression type => ⟨some expression, some type, none⟩
  | .predicate own => ⟨none, some own.type, some own.compile⟩

/-- `fields[name]`; a definition of the resource's own hides an inherited member. -/
def lookup (fields : String → Option TableSqlField) (name : String) : Option Definition :=
  match fields name with
  | some field => some field.definition
  | none => (inherited? name).map fun _ => ⟨none, none, none⟩

def operationSql : TableOperator → Option String
  | .equals => some "="
  | .notEquals => some "<>"
  | .greaterThan => some ">"
  | .greaterThanOrEqual => some ">="
  | .lessThan => some "<"
  | .lessThanOrEqual => some "<="
  | .unknown name => inherited? name
  | _ => none

/-! ## Conditions -/

def compileText (condition : TableFilterCondition) (column parameter : SqlToken) :
    Compile (List SqlToken) :=
  match condition.operator with
  | .equals => return [column, .raw " ILIKE ", parameter]
  | .notEquals => return [column, .raw " NOT ILIKE ", parameter]
  | .contains => return [column, .raw " ILIKE '%' || ", parameter, .raw " || '%'"]
  | .notContains => return [column, .raw " NOT ILIKE '%' || ", parameter, .raw " || '%'"]
  | .startsWith => return [column, .raw " ILIKE ", parameter, .raw " || '%'"]
  | .endsWith => return [column, .raw " ILIKE '%' || ", parameter]
  | _ => unsupported condition

def compileEnum (condition : TableFilterCondition) (column parameter : SqlToken) :
    Compile (List SqlToken) :=
  match condition.operator with
  | .equals => return [column, .raw " = ", parameter]
  | .notEquals => return [column, .raw " <> ", parameter]
  | _ => unsupported condition

def compileNumber (parameterOffset : Nat) (type : FieldType) (condition : TableFilterCondition)
    (column parameter : SqlToken) (value : Value) : Compile (List SqlToken) :=
  match operationSql condition.operator with
  | some operator => return [column, .raw " ", .raw operator, .raw " ", parameter]
  | none =>
      if condition.operator = .between then
        match valueEndOf condition with
        | none => refuse s!"字段 {condition.field} 缺少区间结束值"
        | some valueEnd => do
            match value, ← readScalar valueEnd type with
            | .number start, .number last =>
                if last < start then
                  refuse s!"字段 {condition.field} 的数值区间不合法"
                else do
                  let upper ← nextParam parameterOffset (.number last)
                  return [column, .raw " >= ", parameter, .raw " AND ", column, .raw " <= ", upper]
            | _, _ => refuse s!"字段 {condition.field} 的数值区间不合法"
      else
        unsupported condition

def compileDate (parameterOffset : Nat) (condition : TableFilterCondition)
    (column parameter : SqlToken) (value : Value) : Compile (List SqlToken) :=
  match value with
  | .date start =>
      match condition.operator with
      | .equals => do
          let upper ← nextParam parameterOffset (.date (nextDay start))
          return [column, .raw " >= ", parameter, .raw " AND ", column, .raw " < ", upper]
      | .notEquals => do
          let upper ← nextParam parameterOffset (.date (nextDay start))
          return [.raw "(", column, .raw " < ", parameter, .raw " OR ", column, .raw " >= ", upper,
            .raw ")"]
      | .before => return [column, .raw " < ", parameter]
      | .after => do
          let upper ← nextParam parameterOffset (.date (nextDay start))
          return [column, .raw " >= ", upper]
      | .between =>
          match valueEndOf condition with
          | none => refuse s!"字段 {condition.field} 缺少区间结束值"
          | some valueEnd => do
              match ← readScalar valueEnd .date with
              | .date last =>
                  if last < start then
                    refuse s!"字段 {condition.field} 的日期区间不合法"
                  else do
                    let upper ← nextParam parameterOffset (.date (nextDay last))
                    return [column, .raw " >= ", parameter, .raw " AND ", column, .raw " < ",
                      upper]
              | _ => refuse s!"字段 {condition.field} 的日期区间不合法"
      | _ => unsupported condition
  | _ => refuse s!"字段 {condition.field} 必须是日期"

def compileValueless (type : Option FieldType) (operator : TableOperator) (column : SqlToken) :
    List SqlToken :=
  if type = some .text then
    if operator = .isEmpty then
      [.raw "(", column, .raw " IS NULL OR ", column, .raw " = '')"]
    else
      [.raw "(", column, .raw " IS NOT NULL AND ", column, .raw " <> '')"]
  else if operator = .isEmpty then [column, .raw " IS NULL"]
  else [column, .raw " IS NOT NULL"]

def takesNoValue (operator : TableOperator) : Bool :=
  valuelessOperators.contains operator || relativeDateOperators.contains operator

def readValue (condition : TableFilterCondition) (type : FieldType) : Compile (Option Value) :=
  if takesNoValue condition.operator then pure none
  else some <$> readScalar condition.value type

def readValueEnd (condition : TableFilterCondition) (type : FieldType) :
    Compile (Option Value) :=
  match condition.valueEnd with
  | none => pure none
  | some valueEnd => some <$> readScalar valueEnd type

def compilePredicate (parameterOffset : Nat) (type : FieldType)
    (compile : SqlConditionContext → SqlCompiler) (condition : TableFilterCondition) :
    Compile (List SqlToken) := do
  let value ← readValue condition type
  let valueEnd ← readValueEnd condition type
  match ← (compile ⟨condition, value, valueEnd⟩).run parameterOffset with
  | none => unsupported condition
  | some text => return text

/-- A missing type makes a value be read as a date, and a missing column reads as
`undefined`. -/
def compileColumn (now : Int) (parameterOffset : Nat) (definition : Definition)
    (condition : TableFilterCondition) : Compile (List SqlToken) := do
  let column := SqlToken.column (definition.column.getD "undefined")
  if valuelessOperators.contains condition.operator then
    return compileValueless definition.type condition.operator column
  else if relativeDateOperators.contains condition.operator then
    if definition.type ≠ some .date then
      unsupported condition
    else do
      let (gte, lt) ← fun params =>
        (relativeDateRange condition.operator now).map (·, params)
      let lower ← nextParam parameterOffset (.date gte)
      let upper ← nextParam parameterOffset (.date lt)
      return [column, .raw " >= ", lower, .raw " AND ", column, .raw " < ", upper]
  else do
    let value ← readScalar condition.value (definition.type.getD .date)
    let parameter ← nextParam parameterOffset value
    match definition.type with
    | some .text => compileText condition column parameter
    | some .enum => compileEnum condition column parameter
    | some .date => compileDate parameterOffset condition column parameter value
    | some type => compileNumber parameterOffset type condition column parameter value
    | none => unsupported condition

def compileSqlCondition (now : Int) (parameterOffset : Nat)
    (fields : String → Option TableSqlField) (condition : TableFilterCondition) :
    Compile (List SqlToken) :=
  match lookup fields condition.field with
  | none => refuse s!"不支持筛选或排序字段 {condition.field}"
  | some definition =>
      match definition.compile with
      | some compile =>
          compilePredicate parameterOffset (definition.type.getD .date) compile condition
      | none => compileColumn now parameterOffset definition condition

/-! ## Trees and sorts -/

def Logic.word : Logic → String
  | .and => " AND "
  | .or => " OR "

def joinTexts (separator : String) (texts : List (List SqlToken)) : List SqlToken :=
  List.intercalate [.raw separator] texts

mutual

def compileNode (now : Int) (parameterOffset : Nat) (fields : String → Option TableSqlField) :
    TableFilterTreeNode → Compile (List SqlToken)
  | .group logic conditions => do
      let texts ← compileNodes now parameterOffset fields conditions
      return [.raw "("] ++ joinTexts (Logic.word logic) texts ++ [.raw ")"]
  | .condition c => compileSqlCondition now parameterOffset fields c

def compileNodes (now : Int) (parameterOffset : Nat) (fields : String → Option TableSqlField) :
    List TableFilterTreeNode → Compile (List (List SqlToken))
  | [] => return []
  | node :: nodes => do
      return (← compileNode now parameterOffset fields node) ::
        (← compileNodes now parameterOffset fields nodes)

end

inductive Direction
  | asc
  | desc
  deriving DecidableEq

def Direction.word : Direction → String
  | .asc => "ASC"
  | .desc => "DESC"

structure TableSort where
  field : String
  direction : Direction

def asSort : Json → Except Failure TableSort
  | .obj record =>
      match Json.field? record "field", Json.field? record "direction" with
      | some (.str field), some (.str "ASC") => .ok ⟨field, .asc⟩
      | some (.str field), some (.str "DESC") => .ok ⟨field, .desc⟩
      | _, _ => .error (validationError "排序条件格式不合法")
  | _ => .error (validationError "排序条件格式不合法")

/-- The sorts of the `sorts` text, which is given as the JSON value it reads as. -/
def parseSorts : Option (Option Json) → Except Failure (List TableSort)
  | none => .ok []
  | some (some (.arr sorts)) => sorts.mapM asSort
  | some _ => .error (validationError "排序条件格式不合法")

def compileSort (fields : String → Option TableSqlField) (sort : TableSort) :
    Except Failure (List SqlToken) :=
  match lookup fields sort.field with
  | none => .error (validationError s!"不支持筛选或排序字段 {sort.field}")
  | some definition =>
      match definition.column with
      | none => .error (validationError s!"字段 {sort.field} 不支持排序")
      | some column => .ok [.column column, .raw " ", .raw sort.direction.word]

/-- The last sort of a stable order, by a sortable `id` that is not among the sorts. -/
def idSort (fields : String → Option TableSqlField) (sorts : List TableSort) :
    List (List SqlToken) :=
  if sorts.any (fun sort => sort.field == "id") then []
  else
    match (lookup fields "id").bind Definition.column with
    | none => []
    | some column => if column = "" then [] else [[.column column, .raw " DESC"]]

def compileSorts (fields : String → Option TableSqlField) (sorts : List TableSort) :
    Except Failure (Option (List SqlToken)) := do
  match ← sorts.mapM (compileSort fields) with
  | [] => return none
  | parts => return some (joinTexts ", " (parts ++ idSort fields sorts))

structure TableSqlQuery where
  whereSql : Option (List SqlToken)
  params : List Value
  orderBySql : Option (List SqlToken)
  deriving DecidableEq

def buildTableSqlQuery (now : Int) (parameterOffset : Nat)
    (fields : String → Option TableSqlField) (filters sorts : Option (Option Json)) :
    Except Failure TableSqlQuery := do
  let tree ← parseFilters filters
  let sorts ← parseSorts sorts
  let (whereSql, params) ← (match tree with
    | none => .ok (none, [])
    | some tree => do
        let (whereSql, params) ← (compileNode now parameterOffset fields tree).run []
        return (some whereSql, params) : Except Failure (Option (List SqlToken) × List Value))
  let orderBySql ← compileSorts fields sorts
  return ⟨whereSql, params, orderBySql⟩

/-! ## Text and predicates -/

def columnFields (fields : String → Option TableQuery.TableSqlField) :
    String → Option TableSqlField :=
  fun name => (fields name).map fun field => .column field.column field.type

def SameParams {α β : Type} (m : Compile α) (m' : Compile β) : Prop :=
  ∀ params, (m params).map Prod.snd = (m' params).map Prod.snd

namespace SameParams

variable {α β γ δ : Type} {offset : Nat}

end SameParams

section

variable {now : Int} {offset : Nat} {c : TableFilterCondition} {e : String} {n : Nat}

end

end Wbme.TableQuery.SqlText

import Wbme.TableQuery.SqlText

/-!
# Fields with predicates of their own

The predicates that resources write for fields without a column: memberships of an employee,
the month of an overtime record, the department at the time of a request, the keyword and
the settlement of a borrow record.
-/

namespace Wbme.TableQuery.SqlText

/-! ## Compilers that mention what they register -/

theorem SqlCompiler.mentions_failed (failure : Failure) : (SqlCompiler.failed failure).Mentions := by
  intro parameterOffset params text params' h
  cases h

theorem SqlCompiler.mentions_unsupported : SqlCompiler.unsupported.Mentions := by
  intro parameterOffset params text params' h
  cases h

theorem SqlCompiler.mentions_done {text : List SqlToken} (h : placeholders text = []) :
    (SqlCompiler.done text).Mentions := by
  intro parameterOffset params text' params' hrun n
  cases hrun
  rw [h]
  simp only [List.not_mem_nil, false_iff]
  omega

theorem SqlCompiler.mentions_one {value : Value} {text : SqlToken → List SqlToken}
    (h : ∀ k n, n ∈ placeholders (text (.param k)) ↔ n = k) :
    (SqlCompiler.nextParam value fun p => .done (text p)).Mentions := by
  intro parameterOffset params text' params' hrun n
  cases hrun
  rw [h, List.length_append, List.length_singleton]
  omega

theorem SqlCompiler.mentions_two {v₁ v₂ : Value} {text : SqlToken → SqlToken → List SqlToken}
    (h : ∀ k l n, n ∈ placeholders (text (.param k) (.param l)) ↔ n = k ∨ n = l) :
    (SqlCompiler.nextParam v₁ fun p => .nextParam v₂ fun q => .done (text p q)).Mentions := by
  intro parameterOffset params text' params' hrun n
  cases hrun
  rw [h]
  simp only [List.length_append, List.length_singleton]
  omega

theorem SqlCompiler.mentions_refused {value : Value} :
    (SqlCompiler.nextParam value fun _ => .unsupported).Mentions := by
  intro parameterOffset params text params' h
  cases h

/-! ## Memberships -/

/-- `EXISTS (SELECT 1 FROM …)`, with a further condition if there is one. -/
def membership (table tableAlias : String) (condition : Option (List SqlToken)) : List SqlToken :=
  [.raw s!"EXISTS (SELECT 1 FROM {table} {tableAlias} WHERE {tableAlias}.user_id = ua.user_id"] ++
    (match condition with
      | none => []
      | some text => .raw " AND " :: text) ++ [.raw ")"]

def existsMembershipCompiler (table tableAlias idColumn : String) (context : SqlConditionContext) :
    SqlCompiler :=
  match context.condition.operator with
  | .isEmpty => .done (.raw "NOT " :: membership table tableAlias none)
  | .isNotEmpty => .done (membership table tableAlias none)
  | .equals =>
      match context.value with
      | some (.number id) => .nextParam (.number id) fun p =>
          .done (membership table tableAlias (some [.raw s!"{tableAlias}.{idColumn} = ", p]))
      | _ => .unsupported
  | .notEquals =>
      match context.value with
      | some (.number id) => .nextParam (.number id) fun p =>
          .done (.raw "NOT " ::
            membership table tableAlias (some [.raw s!"{tableAlias}.{idColumn} = ", p]))
      | _ => .unsupported
  | _ => .unsupported

theorem existsMembershipCompiler_mentions (table tableAlias idColumn : String)
    (context : SqlConditionContext) :
    (existsMembershipCompiler table tableAlias idColumn context).Mentions := by
  unfold existsMembershipCompiler
  split
  · exact SqlCompiler.mentions_done rfl
  · exact SqlCompiler.mentions_done rfl
  · split
    · exact SqlCompiler.mentions_one fun k n => by simp [membership]
    · exact SqlCompiler.mentions_unsupported
  · split
    · exact SqlCompiler.mentions_one fun k n => by simp [membership]
    · exact SqlCompiler.mentions_unsupported
  · exact SqlCompiler.mentions_unsupported

def membershipField (table tableAlias idColumn : String) : SqlFieldPredicate where
  type := .number
  compile := existsMembershipCompiler table tableAlias idColumn
  mentions := existsMembershipCompiler_mentions table tableAlias idColumn

/-! ## Overtime -/

/-- The first moments, in UTC, of a month and of the one after it. A year below 100 counts
from 1900. -/
def monthRange (month : String) : Except Failure (Int × Int) :=
  let malformed : Except Failure (Int × Int) :=
    .error (.business .validationFailed [("message", "月份格式非法：YYYY-MM")])
  match month.toList with
  | [y₁, y₂, y₃, y₄, '-', m₁, m₂] =>
      let year : Int := digitsValue [y₁, y₂, y₃, y₄]
      let number : Int := digitsValue [m₁, m₂]
      if [y₁, y₂, y₃, y₄, m₁, m₂].all Char.isDigit ∧ 1 ≤ number ∧ number ≤ 12 then
        let fullYear := if year ≤ 99 then 1900 + year else year
        let next := if number = 12 then daysFromCivil (fullYear + 1) 1 1
          else daysFromCivil fullYear (number + 1) 1
        .ok (daysFromCivil fullYear number 1 * dayMs, next * dayMs)
      else malformed
  | _ => malformed

def monthCompiler (context : SqlConditionContext) : SqlCompiler :=
  match context.condition.operator, context.value with
  | .equals, some (.text month) =>
      match monthRange month with
      | .error failure => .failed failure
      | .ok (start, last) => .nextParam (.date start) fun p => .nextParam (.date last) fun q =>
          .done [.raw "oi.overtime_date >= ", p, .raw "::date AND oi.overtime_date < ", q,
            .raw "::date"]
  | _, _ => .unsupported

variable (context : SqlConditionContext)

theorem monthCompiler_mentions : (monthCompiler context).Mentions := by
  unfold monthCompiler
  split
  · split
    · exact SqlCompiler.mentions_failed _
    · exact SqlCompiler.mentions_two fun k l n => by simp
  · exact SqlCompiler.mentions_unsupported

def monthField : SqlFieldPredicate where
  type := .text
  compile := monthCompiler
  mentions := monthCompiler_mentions

/-- The department of a request as it was stored; `reference` is the JSON text of a list of
one department. The parameter is registered before the operator is looked at. -/
def departmentSnapshotCompiler (reference : ℚ → String) (context : SqlConditionContext) :
    SqlCompiler :=
  match context.value with
  | some (.number id) =>
      match context.condition.operator with
      | .equals => .nextParam (.text (reference id)) fun p =>
          .done [.raw "oi.department_snapshot @> ", p, .raw "::jsonb"]
      | .notEquals => .nextParam (.text (reference id)) fun p =>
          .done [.raw "NOT (oi.department_snapshot @> ", p, .raw "::jsonb)"]
      | _ => .nextParam (.text (reference id)) fun _ => .unsupported
  | _ => .unsupported

theorem departmentSnapshotCompiler_mentions (reference : ℚ → String)
    (context : SqlConditionContext) : (departmentSnapshotCompiler reference context).Mentions := by
  unfold departmentSnapshotCompiler
  split
  · split
    · exact SqlCompiler.mentions_one fun k n => by simp
    · exact SqlCompiler.mentions_one fun k n => by simp
    · exact SqlCompiler.mentions_refused
  · exact SqlCompiler.mentions_unsupported

def departmentSnapshotField (reference : ℚ → String) : SqlFieldPredicate where
  type := .number
  compile := departmentSnapshotCompiler reference
  mentions := departmentSnapshotCompiler_mentions reference

/-! ## Borrow records -/

def borrowKeywordColumns : List String := ["consumable_name", "user_name"]

def columnPredicate : TableOperator → Option (String → SqlToken → List SqlToken)
  | .equals => some fun column p => [.raw column, .raw " ILIKE ", p]
  | .notEquals => some fun column p => [.raw column, .raw " NOT ILIKE ", p]
  | .contains => some fun column p => [.raw column, .raw " ILIKE '%' || ", p, .raw " || '%'"]
  | .notContains => some fun column p =>
      [.raw column, .raw " NOT ILIKE '%' || ", p, .raw " || '%'"]
  | .startsWith => some fun column p => [.raw column, .raw " ILIKE ", p, .raw " || '%'"]
  | .endsWith => some fun column p => [.raw column, .raw " ILIKE '%' || ", p]
  | _ => none

/-- Negative matches hold of every column, positive ones of some. -/
def keywordJoiner (operator : TableOperator) : String :=
  if operator = .notEquals ∨ operator = .notContains then " AND " else " OR "

/-- The predicate in parentheses, as the field returns it. -/
def parenthesized (text : List SqlToken) : List SqlToken := [.raw "("] ++ text ++ [.raw ")"]

def borrowKeywordCompiler (context : SqlConditionContext) : SqlCompiler :=
  match context.condition.operator with
  | .isEmpty => .done (parenthesized (joinTexts " AND " (borrowKeywordColumns.map fun column =>
      [.raw s!"({column} IS NULL OR {column} = '')"])))
  | .isNotEmpty => .done (parenthesized (joinTexts " AND " (borrowKeywordColumns.map fun column =>
      [.raw s!"({column} IS NOT NULL AND {column} <> '')"])))
  | operator =>
      match context.value with
      | some (.text value) =>
          match columnPredicate operator with
          | none => .nextParam (.text value) fun _ => .unsupported
          | some build => .nextParam (.text value) fun p =>
              .done (parenthesized (joinTexts (keywordJoiner operator)
                (borrowKeywordColumns.map fun column => build column p)))
      | _ => .unsupported

theorem columnPredicate_mentions {operator : TableOperator}
    {build : String → SqlToken → List SqlToken} (h : columnPredicate operator = some build)
    (column : String) (k : Nat) : placeholders (build column (.param k)) = [k] := by
  unfold columnPredicate at h
  split at h <;> cases h <;> rfl

theorem borrowKeywordCompiler_mentions : (borrowKeywordCompiler context).Mentions := by
  unfold borrowKeywordCompiler
  split
  · exact SqlCompiler.mentions_done rfl
  · exact SqlCompiler.mentions_done rfl
  · split
    · split
      · exact SqlCompiler.mentions_refused
      · next build hbuild =>
          refine SqlCompiler.mentions_one fun k n => ?_
          simp [parenthesized, joinTexts, borrowKeywordColumns, List.intercalate,
            columnPredicate_mentions hbuild]
    · exact SqlCompiler.mentions_unsupported

def borrowKeywordField : SqlFieldPredicate where
  type := .text
  compile := borrowKeywordCompiler
  mentions := borrowKeywordCompiler_mentions

/-- The value of the condition picks one of two texts. -/
def settlementStatusCompiler (context : SqlConditionContext) : SqlCompiler :=
  let isOpen := SqlCompiler.done [.raw "(qty - returned_qty - written_off_qty) > 0"]
  let isSettled := SqlCompiler.done [.raw "(qty - returned_qty - written_off_qty) = 0"]
  match context.condition.operator, context.value with
  | .equals, some (.text "OPEN") => isOpen
  | .equals, some (.text "SETTLED") => isSettled
  | .notEquals, some (.text "OPEN") => isSettled
  | .notEquals, some (.text "SETTLED") => isOpen
  | _, _ => .unsupported

theorem settlementStatusCompiler_mentions : (settlementStatusCompiler context).Mentions := by
  unfold settlementStatusCompiler
  split
  · exact SqlCompiler.mentions_done rfl
  · exact SqlCompiler.mentions_done rfl
  · exact SqlCompiler.mentions_done rfl
  · exact SqlCompiler.mentions_done rfl
  · exact SqlCompiler.mentions_unsupported

def settlementStatusField : SqlFieldPredicate where
  type := .enum
  compile := settlementStatusCompiler
  mentions := settlementStatusCompiler_mentions

def borrowRecordFilterFields : String → Option TableSqlField
  | "id" => some (.column "id" .number)
  | "keyword" => some (.predicate borrowKeywordField)
  | "settlementStatus" => some (.predicate settlementStatusField)
  | "createdAt" => some (.column "created_at" .date)
  | "dueAt" => some (.column "due_at" .date)
  | "qty" => some (.column "qty" .number)
  | "consumableName" => some (.column "consumable_name" .text)
  | "userName" => some (.column "user_name" .text)
  | _ => none

end Wbme.TableQuery.SqlText

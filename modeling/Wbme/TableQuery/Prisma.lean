import Wbme.TableQuery.Normalization

/-!
# Filters over Prisma

Resources that are read through Prisma compile a filter tree to a nested condition object.
A field may bring a compiler of its own, which sees a condition first and may leave it to
the standard one.
-/

namespace Wbme.TableQuery.Prisma

/-! ## Conditions -/

/-- What a condition object says about one column. -/
inductive PrismaFilter
  | null
  | value (v : Value)
  | operations (entries : List (String × Value))
  /-- The operations with `mode: 'insensitive'`. -/
  | insensitive (entries : List (String × Value))
  | not (filter : PrismaFilter)

inductive PrismaWhere
  | field (name : String) (filter : PrismaFilter)
  | group (logic : Logic) (parts : List PrismaWhere)
  | not (part : PrismaWhere)

/-- What a compiler of a field's own is given. -/
structure TableConditionContext where
  condition : TableFilterCondition
  value : Option Value
  valueEnd : Option Value

/-- `none` leaves a condition to the standard compiler. -/
abbrev CustomCompile := TableConditionContext → Except Failure (Option PrismaWhere)

inductive TablePrismaField
  | columns (prismaField : List String) (type : FieldType) (compile : Option CustomCompile)
  /-- A field without a column. -/
  | derived (type : FieldType) (compile : CustomCompile)

def TablePrismaField.type : TablePrismaField → FieldType
  | .columns _ type _ => type
  | .derived type _ => type

def TablePrismaField.compile : TablePrismaField → Option CustomCompile
  | .columns _ _ compile => compile
  | .derived _ compile => some compile

def TablePrismaField.prismaFields : TablePrismaField → Option (List String)
  | .columns prismaField _ _ => some prismaField
  | .derived _ _ => none

/-! ## The compiler -/

def unsupported {α : Type} (c : TableFilterCondition) : Except Failure α :=
  .error (validationError s!"字段 {c.field} 不支持 {c.operator.name} 操作符")

def fieldDefinition (field : String) (fields : String → Option TablePrismaField) :
    Except Failure TablePrismaField :=
  match fields field with
  | some definition => .ok definition
  | none => .error (validationError s!"不支持筛选或排序字段 {field}")

/-- One condition for each column; several are joined. -/
def forEachField (columns : List String) (multipleLogic : Logic)
    (makeFilter : String → PrismaWhere) : PrismaWhere :=
  match columns.map makeFilter with
  | [result] => result
  | results => .group multipleLogic results

def isValueless (operator : TableOperator) : Bool :=
  valuelessOperators.contains operator || relativeDateOperators.contains operator

/-- What the compiler of the field's own makes of a condition. -/
def intercepted (definition : TablePrismaField) (c : TableFilterCondition) :
    Except Failure (Option PrismaWhere) :=
  match definition.compile with
  | none => .ok none
  | some compile => do
      let value ←
        if isValueless c.operator then pure none
        else some <$> scalarValue c.value definition.type
      let valueEnd ← match c.valueEnd with
        | none => pure none
        | some valueEnd => some <$> scalarValue valueEnd definition.type
      compile { condition := c, value := value, valueEnd := valueEnd }

def compileValueless (columns : List String) (type : FieldType) (operator : TableOperator) :
    PrismaWhere :=
  if type = .text then
    if operator = .isEmpty then
      forEachField columns .and fun column =>
        .group .or [.field column .null, .field column (.value (.text ""))]
    else
      forEachField columns .and fun column =>
        .group .and [.not (.field column .null), .not (.field column (.value (.text "")))]
  else if operator = .isEmpty then forEachField columns .or fun column => .field column .null
  else forEachField columns .or fun column => .field column (.not .null)

def compileText (columns : List String) (c : TableFilterCondition) (value : Value) :
    Except Failure PrismaWhere :=
  let filter (logic : Logic) (f : PrismaFilter) :=
    Except.ok (forEachField columns logic fun column => .field column f)
  match c.operator with
  | .equals => filter .or (.insensitive [("equals", value)])
  | .notEquals => filter .and (.not (.insensitive [("equals", value)]))
  | .contains => filter .or (.insensitive [("contains", value)])
  | .notContains => filter .and (.not (.insensitive [("contains", value)]))
  | .startsWith => filter .or (.insensitive [("startsWith", value)])
  | .endsWith => filter .or (.insensitive [("endsWith", value)])
  | _ => unsupported c

def compileEnum (columns : List String) (c : TableFilterCondition) (value : Value) :
    Except Failure PrismaWhere :=
  match c.operator with
  | .equals => .ok (forEachField columns .or fun column => .field column (.value value))
  | .notEquals =>
      .ok (forEachField columns .or fun column => .field column (.not (.value value)))
  | _ => unsupported c

def compileNumber (columns : List String) (type : FieldType) (c : TableFilterCondition)
    (value : Value) : Except Failure PrismaWhere :=
  let filter (f : PrismaFilter) :=
    Except.ok (forEachField columns .or fun column => .field column f)
  match c.operator with
  | .equals => filter (.value value)
  | .notEquals => filter (.not (.value value))
  | .greaterThan => filter (.operations [("gt", value)])
  | .greaterThanOrEqual => filter (.operations [("gte", value)])
  | .lessThan => filter (.operations [("lt", value)])
  | .lessThanOrEqual => filter (.operations [("lte", value)])
  | .between =>
      match valueEndOf c with
      | none => .error (validationError s!"字段 {c.field} 缺少区间结束值")
      | some valueEnd => do
          match value, ← scalarValue valueEnd type with
          | .number start, .number last =>
              if last < start then
                .error (validationError s!"字段 {c.field} 的数值区间不合法")
              else filter (.operations [("gte", .number start), ("lte", .number last)])
          | _, _ => .error (validationError s!"字段 {c.field} 的数值区间不合法")
  | _ => unsupported c

def compileDate (columns : List String) (c : TableFilterCondition) (value : Value) :
    Except Failure PrismaWhere :=
  let filter (f : PrismaFilter) :=
    Except.ok (forEachField columns .or fun column => .field column f)
  match value with
  | .date start =>
      match c.operator with
      | .equals => filter (.operations [("gte", .date start), ("lt", .date (nextDay start))])
      | .notEquals =>
          .ok (forEachField columns .or fun column => .group .or
            [.field column (.operations [("lt", .date start)]),
              .field column (.operations [("gte", .date (nextDay start))])])
      | .before => filter (.operations [("lt", .date start)])
      | .after => filter (.operations [("gte", .date (nextDay start))])
      | .between =>
          match valueEndOf c with
          | none => .error (validationError s!"字段 {c.field} 缺少区间结束值")
          | some valueEnd => do
              match ← scalarValue valueEnd .date with
              | .date last =>
                  if last < start then
                    .error (validationError s!"字段 {c.field} 的日期区间不合法")
                  else filter (.operations [("gte", .date start), ("lt", .date (nextDay last))])
              | _ => .error (validationError s!"字段 {c.field} 的日期区间不合法")
      | _ => unsupported c
  | _ => .error (validationError s!"字段 {c.field} 必须是日期")

def compileTyped (columns : List String) (type : FieldType) (c : TableFilterCondition)
    (value : Value) : Except Failure PrismaWhere :=
  match type with
  | .text => compileText columns c value
  | .enum => compileEnum columns c value
  | .date => compileDate columns c value
  | type => compileNumber columns type c value

def compileStandard (now : Int) (columns : List String) (type : FieldType)
    (c : TableFilterCondition) : Except Failure PrismaWhere :=
  if valuelessOperators.contains c.operator then
    .ok (compileValueless columns type c.operator)
  else if relativeDateOperators.contains c.operator then
    if type ≠ .date then unsupported c
    else do
      let (gte, lt) ← relativeDateRange c.operator now
      return forEachField columns .or fun column =>
        .field column (.operations [("gte", .date gte), ("lt", .date lt)])
  else do
    let value ← scalarValue c.value type
    compileTyped columns type c value

def compileCondition (now : Int) (fields : String → Option TablePrismaField)
    (c : TableFilterCondition) : Except Failure PrismaWhere := do
  let definition ← fieldDefinition c.field fields
  match ← intercepted definition c with
  | some result => return result
  | none =>
      match definition.prismaFields with
      | none => unsupported c
      | some columns => compileStandard now columns definition.type c

mutual

def compileNode (now : Int) (fields : String → Option TablePrismaField) :
    TableFilterTreeNode → Except Failure PrismaWhere
  | .group logic conditions => do return .group logic (← compileNodes now fields conditions)
  | .condition c => compileCondition now fields c

def compileNodes (now : Int) (fields : String → Option TablePrismaField) :
    List TableFilterTreeNode → Except Failure (List PrismaWhere)
  | [] => return []
  | node :: nodes => do
      return (← compileNode now fields node) :: (← compileNodes now fields nodes)

end

/-- The condition of a list request; sorting is left out. -/
def buildTablePrismaQuery (now : Int) (fields : String → Option TablePrismaField)
    (filters : Option (Option Json)) : Except Failure (Option PrismaWhere) := do
  match ← parseFilters filters with
  | none => return none
  | some tree => return some (← compileNode now fields tree)

/-! ## What is accepted -/

def Accepted {α : Type} (x : Except Failure α) : Prop := ∃ a, x = .ok a

theorem accepted_ok {α : Type} (a : α) : Accepted (Except.ok a : Except Failure α) := ⟨a, rfl⟩

theorem not_accepted_error {α : Type} (e : Failure) :
    ¬ Accepted (Except.error e : Except Failure α) := by
  intro ⟨a, h⟩
  cases h

theorem accepted_bind {α β : Type} {x : Except Failure α} {f : α → Except Failure β} :
    Accepted (x >>= f) ↔ ∃ a, x = .ok a ∧ Accepted (f a) := by
  cases x with
  | error e =>
      constructor
      · intro h
        exact (not_accepted_error e h).elim
      · intro ⟨a, ha, _⟩
        cases ha
  | ok a =>
      constructor
      · intro h
        exact ⟨a, rfl, h⟩
      · intro ⟨b, hb, h⟩
        cases hb
        exact h

def operatorsOf : FieldType → List TableOperator
  | .text => [.equals, .notEquals, .contains, .notContains, .startsWith, .endsWith]
  | .enum => [.equals, .notEquals]
  | .date => [.equals, .notEquals, .before, .after, .between]
  | _ => [.equals, .notEquals, .greaterThan, .greaterThanOrEqual, .lessThan, .lessThanOrEqual,
      .between]

/-- A value comes before another of its type. -/
def precedes : Value → Value → Prop
  | .number a, .number b => a < b
  | .date a, .date b => a < b
  | _, _ => False

/-- A range whose end is readable and not before its start. -/
def IsRange (type : FieldType) (c : TableFilterCondition) (start : Value) : Prop :=
  ∃ valueEnd last, valueEndOf c = some valueEnd ∧ scalarValue valueEnd type = .ok last ∧
    ¬ precedes last start

variable {c : TableFilterCondition} {columns : List String} {type : FieldType} {value : Value}

theorem compileText_accepted :
    Accepted (compileText columns c value) ↔ c.operator ∈ operatorsOf .text := by
  cases hop : c.operator <;>
    simp [compileText, hop, operatorsOf, unsupported, accepted_ok, not_accepted_error]

theorem compileEnum_accepted :
    Accepted (compileEnum columns c value) ↔ c.operator ∈ operatorsOf .enum := by
  cases hop : c.operator <;>
    simp [compileEnum, hop, operatorsOf, unsupported, accepted_ok, not_accepted_error]

theorem value_of_number {type : FieldType} (htype : type = .number ∨ type = .time) {value : Value}
    (h : value.hasType type = true) : ∃ q, value = .number q := by
  cases value with
  | number q => exact ⟨q, rfl⟩
  | _ => rcases htype with rfl | rfl <;> cases h

theorem value_of_date {value : Value} (h : value.hasType .date = true) :
    ∃ instant, value = .date instant := by
  cases value with
  | date instant => exact ⟨instant, rfl⟩
  | _ => cases h

theorem not_isRange {start : Value} (hend : valueEndOf c = none) : ¬ IsRange type c start := by
  intro ⟨valueEnd, last, h, _⟩
  rw [hend] at h
  cases h

theorem isRange_iff {start : Value} {valueEnd : String} (hend : valueEndOf c = some valueEnd) :
    IsRange type c start ↔
      ∃ last, scalarValue valueEnd type = .ok last ∧ ¬ precedes last start := by
  constructor
  · intro ⟨valueEnd', last, h, hlast, horder⟩
    rw [hend] at h
    cases h
    exact ⟨last, hlast, horder⟩
  · intro ⟨last, hlast, horder⟩
    exact ⟨valueEnd, last, hend, hlast, horder⟩

theorem compileNumber_accepted (htype : type = .number ∨ type = .time)
    (hvalue : value.hasType type = true) :
    Accepted (compileNumber columns type c value) ↔
      c.operator ∈ operatorsOf .number ∧ (c.operator = .between → IsRange type c value) := by
  obtain ⟨start, rfl⟩ := value_of_number htype hvalue
  by_cases hbetween : c.operator = .between
  · have hrange : Accepted (compileNumber columns type c (.number start)) ↔
        IsRange type c (.number start) := by
      simp only [compileNumber, hbetween]
      cases hend : valueEndOf c with
      | none => exact iff_of_false (not_accepted_error _) (not_isRange hend)
      | some valueEnd =>
          rw [isRange_iff hend]
          dsimp only
          rw [accepted_bind]
          apply exists_congr
          intro last
          apply and_congr_right
          intro hlast
          obtain ⟨q, rfl⟩ := value_of_number htype (scalarValue_hasType hlast)
          by_cases horder : q < start
          · simp [horder, not_accepted_error, precedes]
          · simp [horder, accepted_ok, precedes]
    rw [hrange]
    simp [hbetween, operatorsOf]
  · cases hop : c.operator <;>
      simp_all [compileNumber, operatorsOf, unsupported, accepted_ok, not_accepted_error]

theorem compileDate_accepted (hvalue : value.hasType .date = true) :
    Accepted (compileDate columns c value) ↔
      c.operator ∈ operatorsOf .date ∧ (c.operator = .between → IsRange .date c value) := by
  obtain ⟨start, rfl⟩ := value_of_date hvalue
  by_cases hbetween : c.operator = .between
  · have hrange : Accepted (compileDate columns c (.date start)) ↔
        IsRange .date c (.date start) := by
      simp only [compileDate, hbetween]
      cases hend : valueEndOf c with
      | none => exact iff_of_false (not_accepted_error _) (not_isRange hend)
      | some valueEnd =>
          rw [isRange_iff hend]
          dsimp only
          rw [accepted_bind]
          apply exists_congr
          intro last
          apply and_congr_right
          intro hlast
          obtain ⟨instant, rfl⟩ := value_of_date (scalarValue_hasType hlast)
          by_cases horder : instant < start
          · simp [horder, not_accepted_error, precedes]
          · simp [horder, accepted_ok, precedes]
    rw [hrange]
    simp [hbetween, operatorsOf]
  · cases hop : c.operator <;>
      simp_all [compileDate, operatorsOf, unsupported, accepted_ok, not_accepted_error]

/-- What the standard compiler accepts. -/
def IsStandard (type : FieldType) (c : TableFilterCondition) : Prop :=
  valuelessOperators.contains c.operator = true ∨
    relativeDateOperators.contains c.operator = true ∧ type = .date ∨
    c.operator ∈ operatorsOf type ∧
      ∃ value, scalarValue c.value type = .ok value ∧
        (c.operator = .between → IsRange type c value)

theorem needs_value {operator : TableOperator} (h : operator ∈ operatorsOf type) :
    isValueless operator = false := by
  cases type <;> simp only [operatorsOf, List.mem_cons, List.not_mem_nil, or_false] at h <;>
    rcases h with rfl | rfl | rfl | rfl | rfl | rfl | rfl <;> rfl

theorem compileTyped_accepted {columns : List String} {type : FieldType}
    {c : TableFilterCondition} {value : Value} (hvalue : value.hasType type = true) :
    Accepted (compileTyped columns type c value) ↔
      c.operator ∈ operatorsOf type ∧ (c.operator = .between → IsRange type c value) := by
  have hnot {type : FieldType} (hmem : .between ∉ operatorsOf type) :
      c.operator ∈ operatorsOf type ↔
        c.operator ∈ operatorsOf type ∧ (c.operator = .between → IsRange type c value) := by
    constructor
    · intro h
      exact ⟨h, fun hop => (hmem (hop ▸ h)).elim⟩
    · exact And.left
  cases type with
  | text => exact compileText_accepted.trans (hnot (by decide))
  | enum => exact compileEnum_accepted.trans (hnot (by decide))
  | date => exact compileDate_accepted hvalue
  | number => exact compileNumber_accepted (.inl rfl) hvalue
  | time => exact compileNumber_accepted (.inr rfl) hvalue

theorem compileStandard_accepted {now : Int} :
    Accepted (compileStandard now columns type c) ↔ IsStandard type c := by
  unfold compileStandard IsStandard
  by_cases hvalueless : valuelessOperators.contains c.operator = true
  · rw [if_pos hvalueless]
    exact iff_of_true (accepted_ok _) (.inl hvalueless)
  rw [if_neg hvalueless, or_iff_right hvalueless]
  by_cases hrelative : relativeDateOperators.contains c.operator = true
  · rw [if_pos hrelative]
    have hother : c.operator ∉ operatorsOf type := by
      intro hop
      have hneeds := needs_value hop
      rw [isValueless, hrelative, Bool.or_true] at hneeds
      cases hneeds
    by_cases hdate : type = .date
    · rw [if_neg (not_not.mpr hdate), accepted_bind]
      obtain ⟨gte, lt, hrange⟩ := relativeDateRange_ok hrelative now
      exact iff_of_true ⟨_, hrange, accepted_ok _⟩ (.inl ⟨hrelative, hdate⟩)
    · rw [if_pos hdate]
      refine iff_of_false (not_accepted_error _) ?_
      intro h
      rcases h with ⟨_, h⟩ | ⟨h, _⟩
      · exact hdate h
      · exact hother h
  · rw [if_neg hrelative, accepted_bind, or_iff_right fun h => hrelative h.1]
    constructor
    · intro ⟨value, hvalue, h⟩
      obtain ⟨hop, hrange⟩ := (compileTyped_accepted (scalarValue_hasType hvalue)).mp h
      exact ⟨hop, value, hvalue, hrange⟩
    · intro ⟨hop, value, hvalue, hrange⟩
      exact ⟨value, hvalue,
        (compileTyped_accepted (scalarValue_hasType hvalue)).mpr ⟨hop, hrange⟩⟩

def contextOf (type : FieldType) (c : TableFilterCondition) : TableConditionContext :=
  { condition := c
    value := if isValueless c.operator then none else (scalarValue c.value type).toOption
    valueEnd := c.valueEnd.bind fun valueEnd => (scalarValue valueEnd type).toOption }

/-- What the compiler of the field's own says of a condition whose values are readable. -/
def verdict (definition : TablePrismaField) (c : TableFilterCondition) :
    Except Failure (Option PrismaWhere) :=
  match definition.compile with
  | none => .ok none
  | some compile => compile (contextOf definition.type c)

/-- A compiler of the field's own is given all values, those that are not compared too. -/
def IsReadable (definition : TablePrismaField) (c : TableFilterCondition) : Prop :=
  definition.compile.isSome = true →
    (isValueless c.operator = false → Accepted (scalarValue c.value definition.type)) ∧
      ∀ valueEnd, c.valueEnd = some valueEnd → Accepted (scalarValue valueEnd definition.type)

theorem intercepted_ok {definition : TablePrismaField} {c : TableFilterCondition}
    {result : Option PrismaWhere} :
    intercepted definition c = .ok result ↔
      IsReadable definition c ∧ verdict definition c = .ok result := by
  unfold intercepted IsReadable verdict
  cases hcompile : definition.compile with
  | none => simp
  | some compile =>
      simp only [Option.isSome_some, true_imp_iff, contextOf]
      cases hneeds : isValueless c.operator with
      | true =>
          cases hend : c.valueEnd with
          | none => simp [pure, Except.pure, bind, Except.bind]
          | some valueEnd =>
              cases hlast : scalarValue valueEnd definition.type with
              | error e =>
                  simp [hlast, not_accepted_error, pure, Except.pure, bind, Except.bind,
                    Functor.map, Except.map]
              | ok last =>
                  simp [hlast, accepted_ok, pure, Except.pure, bind, Except.bind, Functor.map,
                    Except.map, Except.toOption]
      | false =>
          cases hvalue : scalarValue c.value definition.type with
          | error e => simp [not_accepted_error, bind, Except.bind, Functor.map, Except.map]
          | ok value =>
              cases hend : c.valueEnd with
              | none =>
                  simp [accepted_ok, pure, Except.pure, bind, Except.bind, Functor.map,
                    Except.map, Except.toOption]
              | some valueEnd =>
                  cases hlast : scalarValue valueEnd definition.type with
                  | error e =>
                      simp [hlast, not_accepted_error, bind, Except.bind, Functor.map, Except.map]
                  | ok last =>
                      simp [hlast, accepted_ok, bind, Except.bind, Functor.map, Except.map,
                        Except.toOption]

/-- A condition is accepted on a field that is known, if the field's own compiler takes it or
leaves it to a standard one that has a column and takes it. -/
theorem compileCondition_accepted {now : Int} {fields : String → Option TablePrismaField}
    {c : TableFilterCondition} :
    Accepted (compileCondition now fields c) ↔
      ∃ definition, fields c.field = some definition ∧ IsReadable definition c ∧
        ((∃ result, verdict definition c = .ok (some result)) ∨
          verdict definition c = .ok none ∧ definition.prismaFields.isSome = true ∧
            IsStandard definition.type c) := by
  unfold compileCondition fieldDefinition
  cases hfield : fields c.field with
  | none => simp [bind, Except.bind, not_accepted_error]
  | some definition =>
      simp only [Option.some.injEq, exists_eq_left']
      rw [accepted_bind]
      constructor
      · intro ⟨definition', hdefinition, h⟩
        cases hdefinition
        obtain ⟨result, hresult, h⟩ := accepted_bind.mp h
        obtain ⟨hreadable, hverdict⟩ := intercepted_ok.mp hresult
        refine ⟨hreadable, ?_⟩
        cases result with
        | some result => exact .inl ⟨result, hverdict⟩
        | none =>
            refine .inr ⟨hverdict, ?_⟩
            cases hcolumns : definition.prismaFields with
            | none =>
                rw [hcolumns] at h
                exact (not_accepted_error _ h).elim
            | some columns =>
                rw [hcolumns] at h
                exact ⟨rfl, compileStandard_accepted.mp h⟩
      · intro ⟨hreadable, h⟩
        refine ⟨definition, rfl, accepted_bind.mpr ?_⟩
        rcases h with ⟨result, hverdict⟩ | ⟨hverdict, hcolumns, hstandard⟩
        · exact ⟨some result, intercepted_ok.mpr ⟨hreadable, hverdict⟩, accepted_ok _⟩
        · obtain ⟨columns, hcolumns⟩ := Option.isSome_iff_exists.mp hcolumns
          refine ⟨none, intercepted_ok.mpr ⟨hreadable, hverdict⟩, ?_⟩
          rw [hcolumns]
          exact compileStandard_accepted.mpr hstandard

mutual

theorem compileNode_accepted {now : Int} {fields : String → Option TablePrismaField} :
    ∀ node : TableFilterTreeNode, Accepted (compileNode now fields node) ↔
      ∀ c ∈ node.leaves, Accepted (compileCondition now fields c)
  | .condition c => by simp [compileNode, TableFilterTreeNode.leaves]
  | .group logic conditions => by
      have hconditions := @compileNodes_accepted now fields conditions
      rw [compileNode, accepted_bind, TableFilterTreeNode.leaves, ← hconditions]
      constructor
      · intro ⟨parts, hparts, _⟩
        exact ⟨parts, hparts⟩
      · intro ⟨parts, hparts⟩
        exact ⟨parts, hparts, accepted_ok _⟩

theorem compileNodes_accepted {now : Int} {fields : String → Option TablePrismaField} :
    ∀ nodes : List TableFilterTreeNode, Accepted (compileNodes now fields nodes) ↔
      ∀ c ∈ leavesList nodes, Accepted (compileCondition now fields c)
  | [] => by simp [compileNodes, leavesList, accepted_ok, pure, Except.pure]
  | node :: nodes => by
      have hnode := @compileNode_accepted now fields node
      have hnodes := @compileNodes_accepted now fields nodes
      rw [compileNodes, accepted_bind, leavesList]
      simp only [List.forall_mem_append]
      rw [← hnode, ← hnodes]
      constructor
      · intro ⟨part, hpart, h⟩
        obtain ⟨parts, hparts, _⟩ := accepted_bind.mp h
        exact ⟨⟨part, hpart⟩, ⟨parts, hparts⟩⟩
      · intro ⟨⟨part, hpart⟩, ⟨parts, hparts⟩⟩
        exact ⟨part, hpart, accepted_bind.mpr ⟨parts, hparts, accepted_ok _⟩⟩

end

end Wbme.TableQuery.Prisma

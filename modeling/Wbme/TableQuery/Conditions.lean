import Wbme.TableQuery.Agreement

/-!
# Single conditions

Which conditions mean the same in SQL and in memory, given only whether the column is
`NULL` in the row: for those that do, compilation computes what memory makes of the row,
for the others there is a row with the same columns `NULL` on which they differ.
-/

namespace Wbme.TableQuery

open Lib

/-- The comparisons of text fields, and whether they are negated. -/
def textOperator : TableOperator → Option Bool
  | .equals => some false
  | .notEquals => some true
  | .contains => some false
  | .notContains => some true
  | .startsWith => some false
  | .endsWith => some false
  | _ => none

/-- Whether zero satisfies a condition on numbers. -/
def zeroMatches (type : FieldType) (c : TableFilterCondition) (q : ℚ) : Bool :=
  match operationSql c.operator with
  | some operator => operator.holds 0 q
  | none =>
      match (valueEndOf c).map (scalarValue · type) with
      | some (.ok (.number last)) => c.operator = .between ∧ q ≤ 0 ∧ 0 ≤ last
      | _ => false

def dateSupports (c : TableFilterCondition) (start : Int) : Bool :=
  match c.operator with
  | .equals | .notEquals | .before | .after => true
  | .between =>
      match (valueEndOf c).map (scalarValue · .date) with
      | some (.ok (.date last)) => start ≤ last
      | _ => false
  | _ => false

/-- Whether a condition with its value read means the same in SQL and in memory. -/
def isFaithfulValue (type : FieldType) (isNull : Bool) (c : TableFilterCondition) :
    Value → Bool
  | .text value =>
      if type = .text then
        match textOperator c.operator with
        | none => true
        | some negated =>
            if isNull then negated == (value == "") else !value.toList.any LikeToken.isWild
      else
        match c.operator with
        | .equals => !isNull || value != ""
        | .notEquals => !isNull || value == ""
        | _ => true
  | .number q => !isNull || !zeroMatches type c q
  | .date start => !isNull || dateSupports c start

/-- Whether a condition means the same in SQL and in memory on the rows whose columns are
`NULL` where those of a row are. -/
def isFaithful (fields : String → Option TableSqlField) (row : Row)
    (c : TableFilterCondition) : Bool :=
  match fields c.field with
  | none => true
  | some d =>
      if valuelessOperators.contains c.operator || relativeDateOperators.contains c.operator then
        true
      else
        match scalarValue c.value d.type with
        | .error _ => true
        | .ok value => isFaithfulValue d.type (row d.column).isNone c value

/-- The same fields, read from rows in memory. -/
def inMemory (fields : String → Option TableSqlField) (name : String) :
    Option TableInMemoryField :=
  (fields name).map (fun d => ⟨d.type, fun row => row d.column⟩)

/-- Every column that a field maps holds a value of the field's type, or `NULL`. -/
def WellTyped (fields : String → Option TableSqlField) (row : Row) : Prop :=
  ∀ name d, fields name = some d → ∀ v, row d.column = some v → v.hasType d.type = true

/-! ## Conditions that mean the same -/

def Outcome.ofBool (b : Bool) : Outcome := if b then .kept else .dropped

@[simp] theorem outcomeOf_some (b : Bool) : outcomeOf (.ok (some b)) = .ofBool b := by
  cases b <;> rfl

@[simp] theorem outcomeOf_none : outcomeOf (.ok none) = .dropped := rfl

@[simp] theorem outcomeOf_error (e : String) : outcomeOf (.error e) = .refused := rfl

@[simp] theorem outcomeOfMatch_ok (b : Bool) : outcomeOfMatch (.ok b) = .ofBool b := by
  cases b <;> rfl

@[simp] theorem outcomeOfMatch_error (e : Failure) : outcomeOfMatch (.error e) = .refused := rfl

section Leaf

variable {folding : CaseFolding} {now : Int} {parameterOffset : Nat}
  {fields : String → Option TableSqlField} {row : Row} {c : TableFilterCondition}
  {d : TableSqlField}

theorem eval_param (ps rs : List Value) (v : Value) :
    (SqlOperand.param (parameterOffset + (ps.length + 1))).eval
      ⟨folding, parameterOffset, ps ++ [v] ++ rs⟩ row = .ok (some v) := by
  simp [SqlOperand.eval]

theorem eval_param_of_two (ps rs : List Value) (v w : Value) :
    (SqlOperand.param (parameterOffset + (ps.length + 1))).eval
      ⟨folding, parameterOffset, ps ++ [v] ++ [w] ++ rs⟩ row = .ok (some v) := by
  rw [List.append_assoc (ps ++ [v])]
  exact eval_param ps ([w] ++ rs) v

variable {context : SqlContext} {value : String}

theorem eval_column {name : String} {v : Option Value} (h : row name = v) :
    (SqlOperand.column name).eval context row = .ok v := congrArg Except.ok h

theorem outcomeOf_compare {a b : SqlOperand} {x y : Option Value} (ha : a.eval context row = .ok x)
    (hb : b.eval context row = .ok y) (operator : SqlComparison) :
    outcomeOf ((SqlPredicate.compare operator a b).eval context row) =
      outcomeOf (evalCompare operator x y) := by
  simp [SqlPredicate.eval, ha, hb, bind, Except.bind]

theorem ofBool_join_and (a b : Bool) :
    (Outcome.ofBool a).join .and (.ofBool b) = .ofBool (a && b) := by cases a <;> cases b <;> rfl

theorem ofBool_join_or (a b : Bool) :
    (Outcome.ofBool a).join .or (.ofBool b) = .ofBool (a || b) := by cases a <;> cases b <;> rfl

theorem outcomeOf_range (column : String) (lower upper : SqlComparison) (ps rs : List Value)
    (v w : Value) :
    outcomeOf ((SqlPredicate.and
        (.compare lower (.column column) (.param (parameterOffset + (ps.length + 1))))
        (.compare upper (.column column) (.param (parameterOffset + ((ps ++ [v]).length + 1))))).eval
      ⟨folding, parameterOffset, ps ++ [v] ++ [w] ++ rs⟩ row) =
    (outcomeOf (evalCompare lower (row column) (some v))).join .and
      (outcomeOf (evalCompare upper (row column) (some w))) := by
  refine (outcomeOf_and _ _).trans ?_
  rw [← outcomeOf_compare (eval_column rfl) (eval_param_of_two ps rs v w) lower,
    ← outcomeOf_compare (eval_column rfl) (eval_param (ps ++ [v]) rs w) upper]

/-- A condition whose value was read and registered computes what the rest of the compiler
computes with it. -/
theorem computes_of_value {value : Value} {rest : Value → SqlOperand → Compile SqlPredicate}
    {m : Compile SqlPredicate} {o : Outcome} (hm : m = do
      let value ← readScalar c.value d.type
      let parameter ← nextParam parameterOffset value
      rest value parameter) (hvalue : scalarValue c.value d.type = .ok value) (hrest : ∀ ps,
      match rest value (.param (parameterOffset + (ps.length + 1))) (ps ++ [value]) with
      | .error _ => o = .refused
      | .ok (p, ps') => ∃ qs, ps' = ps ++ value :: qs ∧ ∀ rs,
          outcomeOf (p.eval ⟨folding, parameterOffset, ps' ++ rs⟩ row) = o) :
    Computes folding parameterOffset row m o := by
  intro ps
  have h := hrest ps
  rw [hm]
  simp only [bind, StateT.bind, readScalar, hvalue, Except.map, Except.bind, nextParam]
  cases hc : rest value (.param (parameterOffset + (ps.length + 1))) (ps ++ [value]) with
  | error e => rw [hc] at h; exact h
  | ok r =>
      rw [hc] at h
      obtain ⟨qs, hqs, heval⟩ := h
      exact ⟨value :: qs, hqs, heval⟩

/-! ### Text -/

theorem read_fold_append (h : value.toList.any LikeToken.isWild = false) (p : List Char) :
    LikeToken.read (folding.fold value ++ p) =
      (folding.fold value).map .lit ++ LikeToken.read p := by
  refine LikeToken.read_append (fun c hc => ?_) p
  obtain ⟨b, hb, rfl⟩ := List.mem_map.mp hc
  refine Bool.eq_false_iff.mpr fun hwild => ?_
  rw [List.any_eq_true.mpr ⟨b, hb, folding.wild_of_lower b hwild⟩] at h
  cases h

theorem fold_append (s t : String) : folding.fold (s ++ t) = folding.fold s ++ folding.fold t := by
  simp [CaseFolding.fold]

theorem fold_percent : folding.fold "%" = ['%'] := by
  simp [CaseFolding.fold, folding.lower_of_wild '%' (by decide)]

def textPattern (operator : TableOperator) (value : String) : String :=
  match operator with
  | .contains | .notContains => "%" ++ value ++ "%"
  | .startsWith => value ++ "%"
  | .endsWith => "%" ++ value
  | _ => value

def textHolds (operator : TableOperator) (right left : List Char) : Bool :=
  match operator with
  | .contains | .notContains => right <:+: left
  | .startsWith => right <+: left
  | .endsWith => right <:+ left
  | _ => right = left

theorem fits_textPattern (h : value.toList.any LikeToken.isWild = false) (operator : TableOperator)
    (t : List Char) :
    LikeToken.fits (LikeToken.read (folding.fold (textPattern operator value))) t =
      some (textHolds operator (folding.fold value) t) := by
  have hread := @read_fold_append folding _ h []
  rw [List.append_nil, LikeToken.read, List.append_nil] at hread
  have hreadAny := @read_fold_append folding _ h ['%']
  rw [show LikeToken.read ['%'] = [.any] from rfl] at hreadAny
  have hequals : LikeToken.fits (LikeToken.read (folding.fold value)) t =
      some (decide (folding.fold value = t)) := by rw [hread, LikeToken.fits_lits]
  have hcontains : LikeToken.fits (LikeToken.read (folding.fold ("%" ++ value ++ "%"))) t =
      some (decide (folding.fold value <:+: t)) := by
    rw [fold_append, fold_append, fold_percent, List.append_assoc]
    show LikeToken.fits (.any :: LikeToken.read (folding.fold value ++ ['%'])) t = _
    rw [hreadAny, LikeToken.fits_any_lits_any]
  have hstarts : LikeToken.fits (LikeToken.read (folding.fold (value ++ "%"))) t =
      some (decide (folding.fold value <+: t)) := by
    rw [fold_append, fold_percent, hreadAny, LikeToken.fits_lits_any]
  have hends : LikeToken.fits (LikeToken.read (folding.fold ("%" ++ value))) t =
      some (decide (folding.fold value <:+ t)) := by
    rw [fold_append, fold_percent]
    show LikeToken.fits (.any :: LikeToken.read (folding.fold value)) t = _
    rw [hread, LikeToken.fits_any_lits]
  cases operator with
  | contains => exact hcontains
  | notContains => exact hcontains
  | startsWith => exact hstarts
  | endsWith => exact hends
  | _ => exact hequals

theorem compileText_eq {negated : Bool} (h : textOperator c.operator = some negated)
    (column parameter : SqlOperand) :
    ∃ pattern, compileText c column parameter =
        pure (if negated then .notIlike column pattern else .ilike column pattern) ∧
      ∀ (context : SqlContext) (row : Row) (value : String),
        parameter.eval context row = .ok (some (.text value)) →
        pattern.eval context row = .ok (some (.text (textPattern c.operator value))) := by
  unfold compileText
  cases hop : c.operator <;> rw [hop] at h <;> cases h
  case equals => exact ⟨_, rfl, fun _ _ _ hv => hv⟩
  case notEquals => exact ⟨_, rfl, fun _ _ _ hv => hv⟩
  case contains =>
    exact ⟨_, rfl, fun _ _ _ hv => by simp [SqlOperand.eval, hv, bind, Except.bind, textPattern]⟩
  case notContains =>
    exact ⟨_, rfl, fun _ _ _ hv => by simp [SqlOperand.eval, hv, bind, Except.bind, textPattern]⟩
  case startsWith =>
    exact ⟨_, rfl, fun _ _ _ hv => by simp [SqlOperand.eval, hv, bind, Except.bind, textPattern]⟩
  case endsWith =>
    exact ⟨_, rfl, fun _ _ _ hv => by simp [SqlOperand.eval, hv, bind, Except.bind, textPattern]⟩

theorem matchesText_eq {negated : Bool} (h : textOperator c.operator = some negated)
    (actual : Option Value) (value : String) :
    matchesText folding c actual (some (.text value)) =
      .ok (negated ^^ textHolds c.operator (folding.fold value)
        ((stringOf actual).map folding.lower)) := by
  have hvalue : (stringOf (some (.text value))).map folding.lower = folding.fold value := rfl
  unfold matchesText
  rw [hvalue]
  cases hop : c.operator <;> rw [hop] at h <;> cases h <;>
    simp [textHolds, pure, Except.pure, eq_comm]

theorem textOperator_none (h : textOperator c.operator = none) (column parameter : SqlOperand)
    (actual expected : Option Value) :
    compileText c column parameter = unsupported c ∧
      matchesText folding c actual expected = unsupportedOperator c := by
  cases hop : c.operator <;> rw [hop] at h <;>
    first
      | exact absurd h (Option.some_ne_none _)
      | exact ⟨by simp [compileText, hop], by simp [matchesText, hop]⟩

theorem outcomeOf_ilike {a pattern : SqlOperand} {s p : String}
    (ha : a.eval context row = .ok (some (.text s)))
    (hp : pattern.eval context row = .ok (some (.text p))) (negated : Bool) :
    outcomeOf ((if negated then SqlPredicate.notIlike a pattern
        else SqlPredicate.ilike a pattern).eval context row) =
      match LikeToken.fits (LikeToken.read (context.folding.fold p)) (context.folding.fold s) with
      | some b => .ofBool (negated ^^ b)
      | none => .refused := by
  cases negated <;>
    cases hf : LikeToken.fits (LikeToken.read (context.folding.fold p))
      (context.folding.fold s) <;>
    simp [SqlPredicate.eval, ha, hp, bind, Except.bind, evalIlike, hf, pure, Except.pure]

theorem outcomeOf_ilike_null {a pattern : SqlOperand} {p : String}
    (ha : a.eval context row = .ok none) (hp : pattern.eval context row = .ok (some (.text p)))
    (negated : Bool) :
    outcomeOf ((if negated then SqlPredicate.notIlike a pattern
        else SqlPredicate.ilike a pattern).eval context row) = .dropped := by
  cases negated <;>
    simp [SqlPredicate.eval, ha, hp, bind, Except.bind, evalIlike, pure, Except.pure]

variable (operator : TableOperator)

theorem textHolds_nil (value : String) :
    textHolds operator (folding.fold value) [] = (value == "") := by
  have hfold : folding.fold value = [] ↔ value = "" := by
    simp [CaseFolding.fold]
  rw [Bool.eq_iff_iff, beq_iff_eq, ← hfold]
  cases operator <;> simp [textHolds]

theorem computesValue_text {value : String} (hrow : ∀ v, row d.column = some v → ∃ s, v = .text s)
    (h : isFaithfulValue .text (row d.column).isNone c (.text value) = true) (ps : List Value) :
    match compileText c (.column d.column) (.param (parameterOffset + (ps.length + 1)))
        (ps ++ [.text value]) with
      | .error _ =>
          outcomeOfMatch (matchesText folding c (row d.column) (some (.text value))) = .refused
      | .ok (p, ps') => ∃ qs, ps' = ps ++ .text value :: qs ∧ ∀ rs,
          outcomeOf (p.eval ⟨folding, parameterOffset, ps' ++ rs⟩ row) =
            outcomeOfMatch (matchesText folding c (row d.column) (some (.text value))) := by
  cases hop : textOperator c.operator with
  | none =>
      obtain ⟨hcompile, hmatch⟩ := @textOperator_none folding _ hop (.column d.column)
        (.param (parameterOffset + (ps.length + 1))) (row d.column) (some (.text value))
      rw [hcompile, hmatch]
      rfl
  | some negated =>
      obtain ⟨pattern, hcompile, hpattern⟩ := compileText_eq hop (.column d.column)
        (.param (parameterOffset + (ps.length + 1)))
      rw [hcompile, matchesText_eq hop]
      refine ⟨[], rfl, fun rs => ?_⟩
      have hp := hpattern ⟨folding, parameterOffset, ps ++ [.text value] ++ rs⟩ row value
        (eval_param ps rs _)
      cases hv : row d.column with
      | none =>
          have hempty : negated = (value == "") := by
            simpa [isFaithfulValue, hv, hop] using h
          rw [outcomeOf_ilike_null (eval_column hv) hp]
          show Outcome.dropped = outcomeOfMatch (.ok (negated ^^ textHolds _ _ []))
          rw [textHolds_nil, ← hempty, outcomeOfMatch_ok, Bool.xor_self]
          rfl
      | some v =>
          obtain ⟨s, rfl⟩ := hrow v hv
          have hwild : value.toList.any LikeToken.isWild = false := by
            simpa [isFaithfulValue, hv, hop] using h
          rw [outcomeOf_ilike (eval_column hv) hp, fits_textPattern hwild,
            outcomeOfMatch_ok]
          rfl

/-! ### Enumerations -/

theorem computesValue_enum (hrow : ∀ v, row d.column = some v → ∃ s, v = .text s)
    (h : isFaithfulValue .enum (row d.column).isNone c (.text value) = true) (ps : List Value) :
    match compileEnum c (.column d.column) (.param (parameterOffset + (ps.length + 1)))
        (ps ++ [.text value]) with
      | .error _ => outcomeOfMatch (matchesEnum c (row d.column) (some (.text value))) = .refused
      | .ok (p, ps') => ∃ qs, ps' = ps ++ .text value :: qs ∧ ∀ rs,
          outcomeOf (p.eval ⟨folding, parameterOffset, ps' ++ rs⟩ row) =
            outcomeOfMatch (matchesEnum c (row d.column) (some (.text value))) := by
  have hcompare : ∀ operator rs,
      outcomeOf ((SqlPredicate.compare operator (.column d.column)
        (.param (parameterOffset + (ps.length + 1)))).eval
          ⟨folding, parameterOffset, ps ++ [.text value] ++ rs⟩ row) =
        outcomeOf (evalCompare operator (row d.column) (some (.text value))) := fun operator rs => by
    exact outcomeOf_compare (eval_column rfl) (eval_param ps rs _) operator
  unfold compileEnum matchesEnum
  cases hop : c.operator
  case equals =>
    refine ⟨[], rfl, fun rs => ?_⟩
    rw [hcompare]
    cases hv : row d.column with
    | none =>
        have hne : value ≠ "" := by simpa [isFaithfulValue, hv, hop] using h
        simp [evalCompare, pure, Except.pure, stringOf, Outcome.ofBool, hne]
    | some v =>
        obtain ⟨s, rfl⟩ := hrow v hv
        simp [evalCompare, pure, Except.pure, stringOf, String.toList_inj]
  case notEquals =>
    refine ⟨[], rfl, fun rs => ?_⟩
    rw [hcompare]
    cases hv : row d.column with
    | none =>
        have heq : value = "" := by simpa [isFaithfulValue, hv, hop] using h
        simp [evalCompare, pure, Except.pure, stringOf, Outcome.ofBool, heq]
    | some v =>
        obtain ⟨s, rfl⟩ := hrow v hv
        simp [evalCompare, pure, Except.pure, stringOf, String.toList_inj]
  all_goals rfl

/-! ### Numbers and times -/

theorem computesValue_number {type : FieldType} {q : ℚ}
    (htype : ∀ valueEnd v, scalarValue valueEnd type = .ok v → ∃ last, v = .number last)
    (hrow : ∀ v, row d.column = some v → ∃ x, v = .number x)
    (h : isFaithfulValue type (row d.column).isNone c (.number q) = true) (ps : List Value) :
    match compileNumber parameterOffset type c (.column d.column)
        (.param (parameterOffset + (ps.length + 1))) (.number q) (ps ++ [.number q]) with
      | .error _ => outcomeOfMatch (matchesNumber type c (row d.column) (.number q)) = .refused
      | .ok (p, ps') => ∃ qs, ps' = ps ++ .number q :: qs ∧ ∀ rs,
          outcomeOf (p.eval ⟨folding, parameterOffset, ps' ++ rs⟩ row) =
            outcomeOfMatch (matchesNumber type c (row d.column) (.number q)) := by
  obtain ⟨left, hleft⟩ : ∃ left, numberOf (row d.column) = some left := by
    cases hv : row d.column with
    | none => exact ⟨0, rfl⟩
    | some v =>
        obtain ⟨x, rfl⟩ := hrow v hv
        exact ⟨x, rfl⟩
  have hnull : row d.column = none → left = 0 ∧ zeroMatches type c q = false := by
    intro hv
    refine ⟨?_, by simpa [isFaithfulValue, hv] using h⟩
    rw [hv] at hleft
    exact (Option.some.inj hleft).symm
  unfold compileNumber matchesNumber
  rw [hleft]
  cases hop : operationSql c.operator with
  | some operator =>
      refine ⟨[], rfl, fun rs => ?_⟩
      rw [outcomeOf_compare (eval_column rfl) (eval_param ps rs _)]
      show _ = outcomeOfMatch (.ok (operator.holds left q))
      rw [outcomeOfMatch_ok]
      cases hv : row d.column with
      | none =>
          obtain ⟨rfl, hzero⟩ := hnull hv
          have : operator.holds 0 q = false := by simpa [zeroMatches, hop] using hzero
          rw [this]
          rfl
      | some v =>
          obtain ⟨x, rfl⟩ := hrow v hv
          rw [hv] at hleft
          obtain rfl := Option.some.inj hleft
          exact outcomeOf_some _
  | none =>
      by_cases hbetween : c.operator = .between
      · simp only [hbetween, if_true]
        cases hend : valueEndOf c with
        | none => rfl
        | some valueEnd =>
            simp only [readScalar, bind, StateT.bind, Except.bind]
            cases hlast : scalarValue valueEnd type with
            | error e => rfl
            | ok v =>
                obtain ⟨last, rfl⟩ := htype valueEnd v hlast
                by_cases hlt : last < q
                · simp only [Except.map, hlt, if_true]
                  rfl
                · simp only [Except.map, hlt, if_false]
                  refine ⟨[.number last], by simp, fun rs => ?_⟩
                  show outcomeOf ((SqlPredicate.and _ _).eval ⟨folding, parameterOffset,
                    ps ++ [.number q] ++ [.number last] ++ rs⟩ row) =
                      outcomeOfMatch (.ok (decide (left ≥ q ∧ left ≤ last)))
                  rw [outcomeOfMatch_ok]
                  refine (outcomeOf_range d.column .ge .le ps rs (.number q) (.number last)).trans ?_
                  cases hv : row d.column with
                  | none =>
                      obtain ⟨rfl, hzero⟩ := hnull hv
                      have hout : ¬ (q ≤ 0 ∧ 0 ≤ last) := by
                        simpa [zeroMatches, hbetween, operationSql, hend, hlast] using hzero
                      simp [evalCompare, Outcome.join, Outcome.ofBool, hout]
                  | some v =>
                      obtain ⟨x, rfl⟩ := hrow v hv
                      rw [hv] at hleft
                      obtain rfl := Option.some.inj hleft
                      show (outcomeOf (.ok (some _))).join .and (outcomeOf (.ok (some _))) = _
                      rw [outcomeOf_some, outcomeOf_some, ofBool_join_and]
                      simp [SqlComparison.holds]
      · simp only [hbetween, if_false]
        rfl

/-! ### Dates -/

theorem outcomeOf_outside (column : String) (lower upper : SqlComparison) (ps rs : List Value)
    (v w : Value) :
    outcomeOf ((SqlPredicate.or
        (.compare lower (.column column) (.param (parameterOffset + (ps.length + 1))))
        (.compare upper (.column column) (.param (parameterOffset + ((ps ++ [v]).length + 1))))).eval
      ⟨folding, parameterOffset, ps ++ [v] ++ [w] ++ rs⟩ row) =
    (outcomeOf (evalCompare lower (row column) (some v))).join .or
      (outcomeOf (evalCompare upper (row column) (some w))) := by
  refine (outcomeOf_or _ _).trans ?_
  rw [← outcomeOf_compare (eval_column rfl) (eval_param_of_two ps rs v w) lower,
    ← outcomeOf_compare (eval_column rfl) (eval_param (ps ++ [v]) rs w) upper]

theorem scalarValue_date {v : Value} (h : scalarValue value .date = .ok v) :
    ∃ instant, v = .date instant := by
  have := scalarValue_hasType h
  cases v <;> simp [Value.hasType] at this ⊢

theorem computesValue_date {start : Int}
    (hrow : ∀ v, row d.column = some v → ∃ instant, v = .date instant)
    (h : isFaithfulValue .date (row d.column).isNone c (.date start) = true) (ps : List Value) :
    match compileDate parameterOffset c (.column d.column)
        (.param (parameterOffset + (ps.length + 1))) (.date start) (ps ++ [.date start]) with
      | .error _ => outcomeOfMatch (matchesDate c (row d.column) (.date start)) = .refused
      | .ok (p, ps') => ∃ qs, ps' = ps ++ .date start :: qs ∧ ∀ rs,
          outcomeOf (p.eval ⟨folding, parameterOffset, ps' ++ rs⟩ row) =
            outcomeOfMatch (matchesDate c (row d.column) (.date start)) := by
  have hsupports : row d.column = none → dateSupports c start = true := fun hv => by
    simpa [isFaithfulValue, hv] using h
  have hmemory : row d.column = none → matchesDate c (row d.column) (.date start) = .ok false :=
    fun hv => by rw [hv]; rfl
  unfold compileDate
  cases hop : c.operator
  case equals =>
    refine ⟨[.date (nextDay start)], by simp, fun rs => ?_⟩
    refine (outcomeOf_range d.column .ge .lt ps rs _ _).trans ?_
    cases hv : row d.column with
    | none => rfl
    | some v =>
        obtain ⟨left, rfl⟩ := hrow v hv
        simp [matchesDate, memoryDate, hop, pure, Except.pure, evalCompare, SqlComparison.holds, ofBool_join_and]
  case notEquals =>
    refine ⟨[.date (nextDay start)], by simp, fun rs => ?_⟩
    refine (outcomeOf_outside d.column .lt .ge ps rs _ _).trans ?_
    cases hv : row d.column with
    | none => rfl
    | some v =>
        obtain ⟨left, rfl⟩ := hrow v hv
        simp [matchesDate, memoryDate, hop, pure, Except.pure, evalCompare, SqlComparison.holds, ofBool_join_or]
  case before =>
    refine ⟨[], by simp, fun rs => ?_⟩
    refine (outcomeOf_compare (eval_column rfl) (eval_param ps rs _) .lt).trans ?_
    cases hv : row d.column with
    | none => rfl
    | some v =>
        obtain ⟨left, rfl⟩ := hrow v hv
        simp [matchesDate, memoryDate, hop, pure, Except.pure, evalCompare, SqlComparison.holds]
  case after =>
    refine ⟨[.date (nextDay start)], by simp, fun rs => ?_⟩
    refine (outcomeOf_compare (eval_column rfl) (eval_param (ps ++ [.date start]) rs _) .ge).trans ?_
    cases hv : row d.column with
    | none => rfl
    | some v =>
        obtain ⟨left, rfl⟩ := hrow v hv
        simp [matchesDate, memoryDate, hop, pure, Except.pure, evalCompare, SqlComparison.holds]
  case between =>
    cases hend : valueEndOf c with
    | none =>
        cases hv : row d.column with
        | none => simpa [dateSupports, hop, hend] using hsupports hv
        | some v =>
            obtain ⟨left, rfl⟩ := hrow v hv
            show outcomeOfMatch (matchesDate c (some (.date left)) (.date start)) = .refused
            simp [matchesDate, memoryDate, hop, hend]
    | some valueEnd =>
        simp only [readScalar, bind, StateT.bind, Except.bind]
        cases hlast : scalarValue valueEnd .date with
        | error e =>
            cases hv : row d.column with
            | none => simpa [dateSupports, hop, hend, hlast] using hsupports hv
            | some v =>
                obtain ⟨left, rfl⟩ := hrow v hv
                show outcomeOfMatch (matchesDate c (some (.date left)) (.date start)) = .refused
                simp [matchesDate, memoryDate, hop, hend, hlast, bind, Except.bind]
        | ok v =>
            obtain ⟨last, rfl⟩ := scalarValue_date hlast
            by_cases hlt : last < start
            · simp only [Except.map, hlt, if_true]
              cases hv : row d.column with
              | none =>
                  have hle : start ≤ last := by
                    simpa [dateSupports, hop, hend, hlast] using hsupports hv
                  omega
              | some v =>
                  obtain ⟨left, rfl⟩ := hrow v hv
                  show outcomeOfMatch (matchesDate c (some (.date left)) (.date start)) = .refused
                  simp [matchesDate, memoryDate, hop, hend, hlast, hlt, bind, Except.bind]
            · simp only [Except.map, hlt, if_false]
              refine ⟨[.date (nextDay last)], by simp, fun rs => ?_⟩
              refine (outcomeOf_range d.column .ge .lt ps rs _ _).trans ?_
              cases hv : row d.column with
              | none => rfl
              | some v =>
                  obtain ⟨left, rfl⟩ := hrow v hv
                  simp [matchesDate, memoryDate, hop, hend, hlast, hlt, bind, Except.bind, pure,
                    Except.pure, evalCompare, SqlComparison.holds, ofBool_join_and]
  all_goals
    cases hv : row d.column with
    | none => simpa [dateSupports, hop] using hsupports hv
    | some v =>
        obtain ⟨left, rfl⟩ := hrow v hv
        show outcomeOfMatch (matchesDate c (some (.date left)) (.date start)) = .refused
        simp [matchesDate, memoryDate, hop, unsupportedOperator]

/-! ### Every condition -/

theorem computes_valueless (hop : valuelessOperators.contains operator)
    (hrow : ∀ v, row d.column = some v → v.hasType d.type = true) (context : SqlContext) :
    outcomeOf ((compileValueless d.type operator (.column d.column)).eval context row) =
      .ofBool (if operator = .isEmpty then
          decide (row d.column = none ∨ d.type = .text ∧ row d.column = some (.text ""))
        else !decide (row d.column = none ∨ d.type = .text ∧ row d.column = some (.text ""))) := by
  have hop' : operator = .isEmpty ∨ operator = .isNotEmpty := by
    simpa [valuelessOperators] using hop
  unfold compileValueless
  by_cases htext : d.type = .text
  · cases hv : row d.column with
    | none =>
        rcases hop' with rfl | rfl <;>
          simp [htext, SqlPredicate.eval, SqlOperand.eval, hv, bind, Except.bind,
            pure, Except.pure, evalCompare, or3, and3]
    | some v =>
        have hty := hrow v hv
        rw [htext] at hty
        obtain ⟨s, rfl⟩ : ∃ s, v = .text s := by
          cases v <;> simp [Value.hasType] at hty ⊢
        by_cases hs : s = "" <;> rcases hop' with rfl | rfl <;>
          simp [htext, SqlPredicate.eval, SqlOperand.eval, hv, bind, Except.bind, pure,
            Except.pure, evalCompare, or3, and3, hs, Outcome.ofBool]
  · cases hv : row d.column <;> rcases hop' with rfl | rfl <;>
      simp [htext, SqlPredicate.eval, SqlOperand.eval, hv, bind, Except.bind, pure, Except.pure]

theorem relativeDateRange_ok {operator : TableOperator}
    (h : relativeDateOperators.contains operator = true) (now : Int) :
    ∃ gte lt, relativeDateRange operator now = .ok (gte, lt) := by
  have h' : operator = .today ∨ operator = .thisWeek ∨ operator = .thisMonth ∨
      operator = .thisYear ∨ operator = .last7Days ∨ operator = .last30Days := by
    simpa [relativeDateOperators] using h
  rcases h' with rfl | rfl | rfl | rfl | rfl | rfl <;> exact ⟨_, _, rfl⟩

theorem computes_condition (htyped : WellTyped fields row) (h : isFaithful fields row c = true) :
    Computes folding parameterOffset row (compileSqlCondition now parameterOffset fields c)
      (memoryLeaf folding now (inMemory fields) row c) := by
  unfold isFaithful at h
  unfold compileSqlCondition memoryLeaf matchesMemoryCondition inMemory
  cases hfield : fields c.field with
  | none => exact fun ps => rfl
  | some d =>
      have hrow := htyped c.field d hfield
      rw [hfield] at h
      simp only [Option.map_some]
      cases hvalueless : valuelessOperators.contains c.operator with
      | true =>
          simp only [if_true]
          refine fun ps => ⟨[], by simp, fun rs => ?_⟩
          rw [computes_valueless c.operator hvalueless hrow]
          simp only [pure, Except.pure, outcomeOfMatch_ok]
          by_cases htext : d.type = .text <;> by_cases hempty : c.operator = .isEmpty <;>
            simp [htext, hempty]
      | false =>
      cases hrelative : relativeDateOperators.contains c.operator with
      | true =>
          simp only [Bool.false_eq_true, if_false, if_true]
          by_cases hdate : d.type = .date
          · obtain ⟨gte, lt, hrange⟩ := relativeDateRange_ok hrelative now
            simp only [hdate, ne_eq, not_true_eq_false, if_false, hrange]
            refine fun ps => ⟨[.date gte, .date lt], by simp, fun rs => ?_⟩
            refine (outcomeOf_range d.column .ge .lt ps rs _ _).trans ?_
            cases hv : row d.column with
            | none => rfl
            | some v =>
                have hty := hrow v hv
                rw [hdate] at hty
                obtain ⟨left, rfl⟩ : ∃ left, v = .date left := by
                  cases v <;> simp [Value.hasType] at hty ⊢
                simp [memoryDate, bind, Except.bind, pure, Except.pure, evalCompare,
                  SqlComparison.holds, ofBool_join_and]
          · simp only [ne_eq, hdate, not_false_eq_true, if_true]
            exact fun ps => rfl
      | false =>
      simp only [hvalueless, hrelative, Bool.or_false, Bool.false_eq_true, if_false] at h ⊢
      cases hscalar : scalarValue c.value d.type with
      | error e =>
          intro ps
          simp only [bind, StateT.bind, readScalar, hscalar, Except.map, Except.bind]
          rfl
      | ok value =>
          have hty := scalarValue_hasType hscalar
          simp only [hscalar] at h
          refine computes_of_value rfl hscalar ?_
          simp only [bind, Except.bind]
          cases htype : d.type with
          | text =>
              rw [htype] at hty h hrow
              obtain ⟨s, rfl⟩ : ∃ s, value = .text s := by
                cases value <;> simp [Value.hasType] at hty ⊢
              refine computesValue_text (fun v hv => ?_) h
              have := hrow v hv
              cases v <;> simp [Value.hasType] at this ⊢
          | enum =>
              rw [htype] at hty h hrow
              obtain ⟨s, rfl⟩ : ∃ s, value = .text s := by
                cases value <;> simp [Value.hasType] at hty ⊢
              refine computesValue_enum (fun v hv => ?_) h
              have := hrow v hv
              cases v <;> simp [Value.hasType] at this ⊢
          | date =>
              rw [htype] at hty h hrow
              obtain ⟨start, rfl⟩ : ∃ start, value = .date start := by
                cases value <;> simp [Value.hasType] at hty ⊢
              refine computesValue_date (fun v hv => ?_) h
              have := hrow v hv
              cases v <;> simp [Value.hasType] at this ⊢
          | number =>
              rw [htype] at hty h hrow
              obtain ⟨q, rfl⟩ : ∃ q, value = .number q := by
                cases value <;> simp [Value.hasType] at hty ⊢
              refine computesValue_number (fun e v hv => ?_) (fun v hv => ?_) h
              · have := scalarValue_hasType hv
                cases v <;> simp [Value.hasType] at this ⊢
              · have := hrow v hv
                cases v <;> simp [Value.hasType] at this ⊢
          | time =>
              rw [htype] at hty h hrow
              obtain ⟨q, rfl⟩ : ∃ q, value = .number q := by
                cases value <;> simp [Value.hasType] at hty ⊢
              refine computesValue_number (fun e v hv => ?_) (fun v hv => ?_) h
              · have := scalarValue_hasType hv
                cases v <;> simp [Value.hasType] at this ⊢
              · have := hrow v hv
                cases v <;> simp [Value.hasType] at this ⊢

end Leaf

end Wbme.TableQuery

import Wbme.Lib.Txn
import Wbme.TableQuery.Agreement
import Wbme.TableQuery.SqlFields

/-!
# Placeholders and parameters

Which placeholders the compiled text has, against the parameters that were registered for
it. A condition owns the parameters that were registered while it was compiled; its text has
the placeholders of these and no others. Only a date column under `AFTER` leaves one of its
own out: the day itself is registered, but the text compares with the day after.
-/

namespace Wbme.TableQuery.SqlText

variable {now : Int} {parameterOffset : Nat} {fields : String → Option TableSqlField}
  {condition : TableFilterCondition} {params params' : List Value} {text : List SqlToken}
  {e : String} {k : Nat}

/-! ## What a column's branches write -/

theorem bind_ok {α β : Type} {m : Compile α} {f : α → Compile β} {r : β × List Value}
    (h : (m >>= f) params = .ok r) : ∃ a rest, m params = .ok (a, rest) ∧ f a rest = .ok r := by
  cases hm : m params with
  | error e =>
      simp only [bind, StateT.bind, hm, Except.bind] at h
      cases h
  | ok x =>
      simp only [bind, StateT.bind, hm, Except.bind] at h
      exact ⟨x.1, x.2, rfl, h⟩

theorem readScalar_ok {value : String} {type : FieldType} {v : Value}
    (h : readScalar value type params = .ok (v, params')) :
    params' = params ∧ scalarValue value type = .ok v := by
  unfold readScalar at h
  cases hs : scalarValue value type with
  | error e => rw [hs] at h; cases h
  | ok w => rw [hs] at h; cases h; exact ⟨rfl, rfl⟩

theorem readScalar_map_ok {value : String} {type : FieldType} {v : Option Value}
    (h : (some <$> readScalar value type : Compile (Option Value)) params = .ok (v, params')) :
    params' = params := by
  cases hm : readScalar value type params with
  | error e =>
      simp only [Functor.map, StateT.map, hm, bind, Except.bind] at h
      cases h
  | ok x =>
      simp only [Functor.map, StateT.map, hm, bind, Except.bind] at h
      cases h
      exact (readScalar_ok hm).1

theorem readValue_ok {type : FieldType} {v : Option Value}
    (h : readValue condition type params = .ok (v, params')) : params' = params := by
  unfold readValue at h
  by_cases hvalueless : takesNoValue condition.operator = true
  · rw [if_pos hvalueless] at h
    cases h
    rfl
  · rw [if_neg hvalueless] at h
    exact readScalar_map_ok h

theorem readValueEnd_ok {type : FieldType} {v : Option Value}
    (h : readValueEnd condition type params = .ok (v, params')) : params' = params := by
  unfold readValueEnd at h
  cases hend : condition.valueEnd with
  | none =>
      rw [hend] at h
      cases h
      rfl
  | some valueEnd =>
      rw [hend] at h
      exact readScalar_map_ok h

theorem compileText_placeholders
    (h : compileText condition (.column e) (.param k) params = .ok (text, params')) :
    params' = params ∧ placeholders text = [k] := by
  cases hop : condition.operator <;> simp only [compileText, hop] at h <;> cases h <;>
    exact ⟨rfl, rfl⟩

theorem compileEnum_placeholders
    (h : compileEnum condition (.column e) (.param k) params = .ok (text, params')) :
    params' = params ∧ placeholders text = [k] := by
  cases hop : condition.operator <;> simp only [compileEnum, hop] at h <;> cases h <;>
    exact ⟨rfl, rfl⟩

/-- A text with the placeholder of a parameter that was registered before, and possibly of
one that was registered with it. -/
inductive Uses (parameterOffset k : Nat) (params params' : List Value) (text : List SqlToken) :
    Prop
  | first (hp : params' = params) (ht : placeholders text = [k])
  | both (v : Value) (hp : params' = params ++ [v])
      (ht : placeholders text = [k, parameterOffset + (params.length + 1)])

theorem compileNumber_uses {type : FieldType} {value : Value}
    (h : compileNumber parameterOffset type condition (.column e) (.param k) value params =
      .ok (text, params')) : Uses parameterOffset k params params' text := by
  unfold compileNumber at h
  cases hsql : operationSql condition.operator with
  | some operator =>
      rw [hsql] at h
      cases h
      exact .first rfl rfl
  | none =>
      rw [hsql] at h
      by_cases hop : condition.operator = .between
      · rw [if_pos hop] at h
        cases hend : valueEndOf condition with
        | none => rw [hend] at h; cases h
        | some valueEnd =>
            rw [hend] at h
            obtain ⟨last, rest, hlast, hrest⟩ := bind_ok h
            obtain ⟨rfl, -⟩ := readScalar_ok hlast
            clear h hlast
            cases value with
            | text => cases last <;> cases hrest
            | date => cases last <;> cases hrest
            | number start =>
                cases last with
                | text => cases hrest
                | date => cases hrest
                | number last =>
                    by_cases hlt : last < start
                    · simp only [if_pos hlt] at hrest
                      cases hrest
                    · simp only [if_neg hlt] at hrest
                      cases hrest
                      exact .both _ rfl rfl
      · rw [if_neg hop] at h
        cases h

theorem compileDate_uses {value : Value}
    (h : compileDate parameterOffset condition (.column e) (.param k) value params =
      .ok (text, params')) :
    if condition.operator = .after then
      ∃ v, params' = params ++ [v] ∧
        placeholders text = [parameterOffset + (params.length + 1)]
    else Uses parameterOffset k params params' text := by
  unfold compileDate at h
  cases value with
  | text => cases h
  | number => cases h
  | date start =>
      cases hop : condition.operator
      case equals => simp only [hop] at h; cases h; exact .both _ rfl rfl
      case notEquals => simp only [hop] at h; cases h; exact .both _ rfl rfl
      case before => simp only [hop] at h; cases h; exact .first rfl rfl
      case after => simp only [hop] at h; cases h; exact ⟨_, rfl, rfl⟩
      case between =>
        simp only [hop] at h
        cases hend : valueEndOf condition with
        | none => rw [hend] at h; cases h
        | some valueEnd =>
            rw [hend] at h
            obtain ⟨last, rest, hlast, h⟩ := bind_ok h
            obtain ⟨rfl, -⟩ := readScalar_ok hlast
            cases last with
            | text => cases h
            | number => cases h
            | date last =>
                by_cases hlt : last < start
                · simp only [if_pos hlt] at h
                  cases h
                · simp only [if_neg hlt] at h
                  cases h
                  exact .both _ rfl rfl
      all_goals
        simp only [hop] at h
        cases h

/-! ## What a condition writes -/

/-- A comparison of a date column with the days after a day. -/
def ComparesAfter (fields : String → Option TableSqlField) (c : TableFilterCondition) : Prop :=
  c.operator = .after ∧ ∃ expression, fields c.field = some (.column expression .date)

structure Owns (parameterOffset : Nat) (params : List Value) (text : List SqlToken)
    (params' values : List Value) : Prop where
  registered : params' = params ++ values
  own : ∀ n ∈ placeholders text,
    parameterOffset + params.length < n ∧ n ≤ parameterOffset + params'.length

/-- Every parameter that was registered has its placeholder. -/
def Complete (parameterOffset : Nat) (params : List Value) (text : List SqlToken)
    (params' : List Value) : Prop :=
  ∀ n, parameterOffset + params.length < n → n ≤ parameterOffset + params'.length →
    n ∈ placeholders text

theorem SqlCompiler.run_registers (compiler : SqlCompiler) {o : Option (List SqlToken)} :
    ∀ {params : List Value}, compiler.run parameterOffset params = .ok (o, params') →
      ∃ values, params' = params ++ values := by
  induction compiler with
  | failed failure => intro params h; cases h
  | unsupported => intro params h; cases h; exact ⟨[], (List.append_nil _).symm⟩
  | done text => intro params h; cases h; exact ⟨[], (List.append_nil _).symm⟩
  | nextParam value k ih =>
      intro params h
      obtain ⟨values, rfl⟩ := ih _ h
      exact ⟨value :: values, by simp⟩

theorem Uses.owns {value : Value}
    (h : Uses parameterOffset (parameterOffset + (params.length + 1)) (params ++ [value]) params'
      text) :
    ∃ values, Owns parameterOffset params text params' values ∧
      Complete parameterOffset params text params' := by
  cases h with
  | first hp ht =>
      refine ⟨[value], ⟨hp, ?_⟩, ?_⟩
      · simp [ht, hp]
      · intro n hlow hhigh
        simp only [hp, List.length_append, List.length_singleton] at hhigh
        simp only [ht, List.mem_singleton]
        omega
  | both v hp ht =>
      refine ⟨[value, v], ⟨by simp [hp], ?_⟩, ?_⟩
      · simp [ht, hp] <;> omega
      · intro n hlow hhigh
        simp only [hp, List.length_append, List.length_singleton] at hhigh
        simp only [ht, List.length_append, List.length_singleton, List.mem_cons,
          List.not_mem_nil, or_false]
        omega

theorem compilePredicate_owns {own : SqlFieldPredicate}
    (h : compilePredicate parameterOffset own.type own.compile condition params =
      .ok (text, params')) :
    ∃ values, Owns parameterOffset params text params' values ∧
      Complete parameterOffset params text params' := by
  unfold compilePredicate at h
  obtain ⟨value, rest, hvalue, h⟩ := bind_ok h
  obtain ⟨valueEnd, rest', hend, h⟩ := bind_ok h
  obtain ⟨o, rest'', hrun, h⟩ := bind_ok h
  obtain rfl := readValue_ok hvalue
  obtain rfl := readValueEnd_ok hend
  cases o with
  | none => cases h
  | some text' =>
      cases h
      obtain ⟨values, hvalues⟩ := (own.compile _).run_registers hrun
      have hmentions := own.mentions _ parameterOffset _ _ _ hrun
      exact ⟨values, ⟨hvalues, fun n hn => (hmentions n).mp hn⟩,
        fun n hlow hhigh => (hmentions n).mpr ⟨hlow, hhigh⟩⟩

/-- What a column condition writes: all that it registers, unless it compares with the days
after a day. -/
theorem compileColumn_owns {type : Option FieldType} {column : Option String}
    (h : compileColumn now parameterOffset ⟨column, type, none⟩ condition params =
      .ok (text, params')) :
    ∃ values, Owns parameterOffset params text params' values ∧
      (Complete parameterOffset params text params' ↔
        ¬ (condition.operator = .after ∧ type = some .date)) := by
  unfold compileColumn at h
  by_cases hless : valuelessOperators.contains condition.operator = true
  · -- nothing is registered
    rw [if_pos hless] at h
    cases h
    have hnone : placeholders (compileValueless type condition.operator
        (.column (column.getD "undefined"))) = [] := by
      unfold compileValueless
      split <;> split <;> rfl
    have hop : condition.operator ≠ .after := by
      intro hafter
      rw [hafter] at hless
      cases hless
    refine ⟨[], ⟨(List.append_nil _).symm, ?_⟩, ?_⟩
    · intro n hn
      rw [hnone] at hn
      cases hn
    · refine iff_of_true (fun n hlow hhigh => ?_) (fun hafter => hop hafter.1)
      omega
  rw [if_neg hless] at h
  by_cases hrelative : relativeDateOperators.contains condition.operator = true
  · have hop : condition.operator ≠ .after := by
      intro hafter
      rw [hafter] at hrelative
      cases hrelative
    rw [if_pos hrelative] at h
    by_cases htype : type ≠ some .date
    · rw [if_pos htype] at h
      cases h
    · rw [if_neg htype] at h
      cases hrange : relativeDateRange condition.operator now with
      | error e =>
          simp only [bind, StateT.bind, hrange, Except.map, Except.bind] at h
          cases h
      | ok range =>
          simp only [bind, StateT.bind, hrange, Except.map, Except.bind] at h
          cases h
          have huses : Uses parameterOffset (parameterOffset + (params.length + 1))
              (params ++ [.date range.1]) (params ++ [.date range.1] ++ [.date range.2])
              [.column (column.getD "undefined"), .raw " >= ",
                .param (parameterOffset + (params.length + 1)), .raw " AND ",
                .column (column.getD "undefined"), .raw " < ",
                .param (parameterOffset + ((params ++ [Value.date range.1]).length + 1))] :=
            .both (.date range.2) rfl rfl
          obtain ⟨values, howns, hall⟩ := huses.owns
          exact ⟨values, howns, iff_of_true hall fun hafter => hop hafter.1⟩
  · rw [if_neg hrelative] at h
    obtain ⟨value, rest, hvalue, hbody⟩ := bind_ok h
    obtain ⟨rfl, -⟩ := readScalar_ok hvalue
    obtain ⟨parameter, rest', hparameter, htext⟩ := bind_ok hbody
    cases hparameter
    clear h hbody hvalue
    cases type with
    | none => cases htext
    | some type =>
        cases type with
        | text =>
            obtain ⟨values, howns, hall⟩ := (Uses.first (compileText_placeholders htext).1
              (compileText_placeholders htext).2).owns
            exact ⟨values, howns, iff_of_true hall (by simp)⟩
        | «enum» =>
            obtain ⟨values, howns, hall⟩ := (Uses.first (compileEnum_placeholders htext).1
              (compileEnum_placeholders htext).2).owns
            exact ⟨values, howns, iff_of_true hall (by simp)⟩
        | number =>
            obtain ⟨values, howns, hall⟩ := (compileNumber_uses htext).owns
            exact ⟨values, howns, iff_of_true hall (by simp)⟩
        | time =>
            obtain ⟨values, howns, hall⟩ := (compileNumber_uses htext).owns
            exact ⟨values, howns, iff_of_true hall (by simp)⟩
        | date =>
            have huses := compileDate_uses htext
            by_cases hop : condition.operator = .after
            · rw [if_pos hop] at huses
              obtain ⟨v, hp, ht⟩ := huses
              refine ⟨[value, v], ⟨by simp [hp], ?_⟩, ?_⟩
              · simp [ht, hp] <;> omega
              · refine iff_of_false (fun hall => ?_) (by simp [hop])
                -- the placeholder of the day itself
                have hfirst := hall (parameterOffset + (rest.length + 1)) (by omega)
                  (by simp [hp])
                simp [ht] at hfirst
            · rw [if_neg hop] at huses
              obtain ⟨values, howns, hall⟩ := huses.owns
              exact ⟨values, howns, iff_of_true hall (fun hafter => hop hafter.1)⟩

theorem compileSqlCondition_owns
    (h : compileSqlCondition now parameterOffset fields condition params =
      .ok (text, params')) :
    ∃ values, Owns parameterOffset params text params' values ∧
      (Complete parameterOffset params text params' ↔ ¬ ComparesAfter fields condition) := by
  unfold compileSqlCondition lookup at h
  unfold ComparesAfter
  cases hfield : fields condition.field with
  | none =>
      rw [hfield] at h
      cases hname : inherited? condition.field with
      | none => simp only [hname, Option.map_none] at h; cases h
      | some member =>
          simp only [hname, Option.map_some] at h
          obtain ⟨values, howns, hall⟩ := compileColumn_owns h
          exact ⟨values, howns, by simpa using hall⟩
  | some field =>
      rw [hfield] at h
      cases field with
      | column expression type =>
          obtain ⟨values, howns, hall⟩ := compileColumn_owns h
          refine ⟨values, howns, hall.trans ?_⟩
          simp
      | predicate own =>
          obtain ⟨values, howns, hall⟩ := compilePredicate_owns h
          exact ⟨values, howns, iff_of_true hall (by simp)⟩

/-! ## Trees -/

/-- What one condition of a tree added to the text and to the parameters. -/
structure Piece where
  condition : TableFilterCondition
  text : List SqlToken
  values : List Value

/-- The conditions of a tree were compiled one after the other, each behind the parameters
of those before it, and each text refers to its own values. -/
inductive Pieces (now : Int) (parameterOffset : Nat) (fields : String → Option TableSqlField) :
    List Value → List Piece → Prop
  | nil (params : List Value) : Pieces now parameterOffset fields params []
  | cons {params : List Value} (piece : Piece) {pieces : List Piece}
      (compiled : compileSqlCondition now parameterOffset fields piece.condition params =
        .ok (piece.text, params ++ piece.values))
      (own : ∀ n ∈ placeholders piece.text, parameterOffset + params.length < n ∧
        n ≤ parameterOffset + (params ++ piece.values).length)
      (rest : Pieces now parameterOffset fields (params ++ piece.values) pieces) :
      Pieces now parameterOffset fields params (piece :: pieces)

def valuesOf (pieces : List Piece) : List Value := pieces.flatMap Piece.values

def placeholdersOf (pieces : List Piece) : List Nat :=
  pieces.flatMap (fun piece => placeholders piece.text)

@[simp] theorem valuesOf_nil : valuesOf [] = [] := rfl

@[simp] theorem valuesOf_cons (piece : Piece) (pieces : List Piece) :
    valuesOf (piece :: pieces) = piece.values ++ valuesOf pieces := rfl

@[simp] theorem valuesOf_append (a b : List Piece) :
    valuesOf (a ++ b) = valuesOf a ++ valuesOf b := List.flatMap_append

@[simp] theorem placeholdersOf_nil : placeholdersOf [] = [] := rfl

@[simp] theorem placeholdersOf_cons (piece : Piece) (pieces : List Piece) :
    placeholdersOf (piece :: pieces) = placeholders piece.text ++ placeholdersOf pieces := rfl

@[simp] theorem placeholdersOf_append (a b : List Piece) :
    placeholdersOf (a ++ b) = placeholdersOf a ++ placeholdersOf b := List.flatMap_append

theorem Pieces.append {a b : List Piece} (ha : Pieces now parameterOffset fields params a)
    (hb : Pieces now parameterOffset fields (params ++ valuesOf a) b) :
    Pieces now parameterOffset fields params (a ++ b) := by
  induction ha with
  | nil params => simpa using hb
  | cons piece compiled own rest ih =>
      refine .cons piece compiled own (ih ?_)
      simpa [List.append_assoc] using hb

structure Accounts (now : Int) (parameterOffset : Nat) (fields : String → Option TableSqlField)
    (params : List Value) (conditions : List TableFilterCondition) (occurring : List Nat)
    (params' : List Value) (pieces : List Piece) : Prop where
  compiled : Pieces now parameterOffset fields params pieces
  inOrder : pieces.map Piece.condition = conditions
  registered : params' = params ++ valuesOf pieces
  written : occurring = placeholdersOf pieces

theorem placeholders_joinTexts (separator : String) (texts : List (List SqlToken)) :
    placeholders (joinTexts separator texts) = texts.flatMap placeholders := by
  induction texts with
  | nil => rfl
  | cons text texts ih =>
      cases texts with
      | nil => simp [joinTexts, List.intercalate]
      | cons text' texts =>
          have hjoin : joinTexts separator (text :: text' :: texts) =
              text ++ .raw separator :: joinTexts separator (text' :: texts) := by
            simp [joinTexts, List.intercalate]
          rw [hjoin, placeholders_append, placeholders_raw, ih]
          rfl

mutual

theorem compileNode_accounts (node : TableFilterTreeNode) {params params' : List Value}
    {text : List SqlToken}
    (h : compileNode now parameterOffset fields node params = .ok (text, params')) :
    ∃ pieces, Accounts now parameterOffset fields params node.leaves (placeholders text) params'
      pieces := by
  cases node with
  | condition c =>
      obtain ⟨values, howns, -⟩ := compileSqlCondition_owns h
      refine ⟨[⟨c, text, values⟩], ?_, rfl, ?_, ?_⟩
      · obtain ⟨rfl, hown⟩ := howns
        exact .cons _ h hown (.nil _)
      · simpa using howns.registered
      · simp
  | group logic conditions =>
      obtain ⟨texts, rest, htexts, h⟩ := bind_ok h
      cases h
      obtain ⟨pieces, haccounts⟩ := compileNodes_accounts conditions htexts
      refine ⟨pieces, haccounts.compiled, haccounts.inOrder, haccounts.registered, ?_⟩
      rw [← haccounts.written, placeholders_append, placeholders_append,
        placeholders_joinTexts]
      simp

theorem compileNodes_accounts (nodes : List TableFilterTreeNode) {params params' : List Value}
    {texts : List (List SqlToken)}
    (h : compileNodes now parameterOffset fields nodes params = .ok (texts, params')) :
    ∃ pieces, Accounts now parameterOffset fields params (leavesList nodes)
      (texts.flatMap placeholders) params' pieces := by
  cases nodes with
  | nil =>
      cases h
      exact ⟨[], .nil _, rfl, (List.append_nil _).symm, rfl⟩
  | cons node nodes =>
      obtain ⟨text, rest, htext, h⟩ := bind_ok h
      obtain ⟨texts', rest', htexts, h⟩ := bind_ok h
      cases h
      obtain ⟨a, ha⟩ := compileNode_accounts node htext
      obtain ⟨b, hb⟩ := compileNodes_accounts nodes htexts
      refine ⟨a ++ b, ha.compiled.append (ha.registered ▸ hb.compiled), ?_, ?_, ?_⟩
      · rw [List.map_append, ha.inOrder, hb.inOrder]
        rfl
      · rw [hb.registered, ha.registered, valuesOf_append, List.append_assoc]
      · rw [List.flatMap_cons, ha.written, hb.written, placeholdersOf_append]

end

/-! ## Completeness -/

theorem Pieces.own_range {pieces : List Piece}
    (h : Pieces now parameterOffset fields params pieces) :
    ∀ n ∈ placeholdersOf pieces, parameterOffset + params.length < n ∧
      n ≤ parameterOffset + (params ++ valuesOf pieces).length := by
  induction h with
  | nil params => intro n hn; cases hn
  | cons piece compiled own rest ih =>
      intro n hn
      rw [valuesOf_cons]
      simp only [List.length_append] at own ih ⊢
      rcases List.mem_append.mp hn with hn | hn
      · have := own n hn
        omega
      · have := ih n hn
        omega

/-- The conditions of a tree use all that they register if none of them compares with the
days after a day. The parameters of one condition are used by no other. -/
theorem Pieces.all_used_iff {pieces : List Piece}
    (h : Pieces now parameterOffset fields params pieces) :
    (∀ n, parameterOffset + params.length < n →
      n ≤ parameterOffset + (params ++ valuesOf pieces).length → n ∈ placeholdersOf pieces) ↔
    ∀ c ∈ pieces.map Piece.condition, ¬ ComparesAfter fields c := by
  induction h with
  | nil params =>
      simp only [valuesOf_nil, List.append_nil, List.map_nil]
      refine iff_of_true (fun n hlow hhigh => ?_) (fun c hc => absurd hc List.not_mem_nil)
      omega
  | @cons params piece pieces compiled own rest ih =>
      obtain ⟨values, howns, hcomplete⟩ := compileSqlCondition_owns compiled
      rw [List.map_cons, List.forall_mem_cons, ← ih, ← hcomplete]
      have hrange := rest.own_range
      have hlength : (params ++ valuesOf (piece :: pieces)).length =
          (params ++ piece.values ++ valuesOf pieces).length := by simp
      rw [hlength]
      simp only [Complete, placeholdersOf_cons, List.mem_append]
      simp only [List.length_append] at own hrange ⊢
      constructor
      · intro hall
        refine ⟨fun n hlow hhigh => ?_, fun n hlow hhigh => ?_⟩
        · rcases hall n hlow (by omega) with hn | hn
          · exact hn
          · have := hrange n hn
            omega
        · rcases hall n (by omega) (by omega) with hn | hn
          · have := own n hn
            omega
          · exact hn
      · intro hall n hlow hhigh
        by_cases hn : n ≤ parameterOffset + (params.length + piece.values.length)
        · exact Or.inl (hall.1 n hlow hn)
        · exact Or.inr (hall.2 n (by omega) hhigh)

/-! ## Requests -/

def conditionsIn (filters : Option (Option Json)) : List TableFilterCondition :=
  match parseFilters filters with
  | .ok (some tree) => tree.leaves
  | _ => []

def TableSqlQuery.placeholders (query : TableSqlQuery) : List Nat :=
  SqlText.placeholders (query.whereSql.getD []) ++ SqlText.placeholders (query.orderBySql.getD [])

/-- The placeholders of a query are those of its parameters, and each condition refers to
its own. -/
structure NumbersParams (now : Int) (parameterOffset : Nat)
    (fields : String → Option TableSqlField) (conditions : List TableFilterCondition)
    (query : TableSqlQuery) : Prop where
  exactly : ∀ n, n ∈ query.placeholders ↔
    parameterOffset < n ∧ n ≤ parameterOffset + query.params.length
  accounted : ∃ pieces, Accounts now parameterOffset fields [] conditions query.placeholders
    query.params pieces

theorem compileSort_placeholders {sort : TableSort} (h : compileSort fields sort = .ok text) :
    placeholders text = [] := by
  unfold compileSort at h
  split at h
  · cases h
  · split at h
    · cases h
    · cases h
      rfl

theorem idSort_placeholders (fields : String → Option TableSqlField) (sorts : List TableSort) :
    (idSort fields sorts).flatMap placeholders = [] := by
  unfold idSort
  split
  · rfl
  · split
    · rfl
    · split <;> rfl

theorem compileSorts_placeholders {sorts : List TableSort} {order : Option (List SqlToken)}
    (h : compileSorts fields sorts = .ok order) : placeholders (order.getD []) = [] := by
  unfold compileSorts at h
  cases hparts : sorts.mapM (compileSort fields) with
  | error e => simp only [hparts, bind, Except.bind] at h; cases h
  | ok parts =>
      simp only [hparts, bind, Except.bind] at h
      have hnone : ∀ part ∈ parts, placeholders part = [] := by
        intro part hpart
        obtain ⟨sort, -, hsort⟩ := Lib.mem_mapM hparts hpart
        exact compileSort_placeholders hsort
      cases parts with
      | nil => cases h; rfl
      | cons part parts =>
          cases h
          rw [Option.getD_some, placeholders_joinTexts, List.flatMap_append,
            idSort_placeholders, List.append_nil, List.flatMap_eq_nil_iff]
          exact hnone

def CompilesTo (now : Int) (parameterOffset : Nat) (fields : String → Option TableSqlField)
    (query : TableSqlQuery) : Option TableFilterTreeNode → Prop
  | none => query.whereSql = none ∧ query.params = []
  | some tree => ∃ text, query.whereSql = some text ∧
      compileNode now parameterOffset fields tree [] = .ok (text, query.params)

theorem buildTableSqlQuery_ok {filters sorts : Option (Option Json)} {query : TableSqlQuery}
    (h : buildTableSqlQuery now parameterOffset fields filters sorts = .ok query) :
    ∃ tree parsed, parseFilters filters = .ok tree ∧ parseSorts sorts = .ok parsed ∧
      compileSorts fields parsed = .ok query.orderBySql ∧
      CompilesTo now parameterOffset fields query tree := by
  unfold buildTableSqlQuery at h
  cases htree : parseFilters filters with
  | error e => simp only [htree, bind, Except.bind] at h; cases h
  | ok tree =>
    cases hsorts : parseSorts sorts with
    | error e => simp only [htree, hsorts, bind, Except.bind] at h; cases h
    | ok parsed =>
      refine ⟨tree, parsed, rfl, rfl, ?_⟩
      cases tree with
      | none =>
          simp only [htree, hsorts, bind, Except.bind] at h
          cases horder : compileSorts fields parsed with
          | error e => simp only [horder] at h; cases h
          | ok order =>
              simp only [horder] at h
              cases h
              exact ⟨rfl, rfl, rfl⟩
      | some tree =>
          cases hnode : compileNode now parameterOffset fields tree [] with
          | error e =>
              simp only [htree, hsorts, StateT.run, hnode, bind, Except.bind] at h
              cases h
          | ok compiled =>
              simp only [htree, hsorts, StateT.run, hnode, bind, Except.bind, pure,
                Except.pure] at h
              cases horder : compileSorts fields parsed with
              | error e => simp only [horder] at h; cases h
              | ok order =>
                  simp only [horder] at h
                  cases h
                  exact ⟨rfl, compiled.1, rfl, hnode⟩

theorem buildTableSqlQuery_accounts {filters sorts : Option (Option Json)} {query : TableSqlQuery}
    (h : buildTableSqlQuery now parameterOffset fields filters sorts = .ok query) :
    ∃ pieces, Accounts now parameterOffset fields [] (conditionsIn filters) query.placeholders
      query.params pieces := by
  obtain ⟨tree, parsed, htree, -, horder, hcompiles⟩ := buildTableSqlQuery_ok h
  unfold conditionsIn TableSqlQuery.placeholders
  rw [compileSorts_placeholders horder, List.append_nil, htree]
  cases tree with
  | none =>
      obtain ⟨hwhere, hparams⟩ := hcompiles
      rw [hwhere, hparams]
      exact ⟨[], .nil _, rfl, rfl, rfl⟩
  | some tree =>
      obtain ⟨text, hwhere, hnode⟩ := hcompiles
      rw [hwhere]
      exact compileNode_accounts tree hnode

/-- One condition as a request writes it. -/
def conditionJson (field operator value : String) : Json :=
  .obj [("field", .str field), ("operator", .str operator), ("value", .str value)]

def filterJson (conditions : List Json) : Option (Option Json) :=
  some (some (.obj [("logic", .str "AND"), ("conditions", .arr conditions)]))

def sortJson (field direction : String) : Option (Option Json) :=
  some (some (.arr [.obj [("field", .str field), ("direction", .str direction)]]))

/-- The borrow records of a day and a consumable, behind two parameters of the caller. -/
def borrowedOnDay : TableSqlQuery where
  whereSql := some [.raw "(", .column "created_at", .raw " >= ", .param 3, .raw " AND ",
    .column "created_at", .raw " < ", .param 4, .raw " AND ",
    .column "consumable_name", .raw " ILIKE '%' || ", .param 5, .raw " || '%'", .raw ")"]
  params := [.date (shanghaiDayStart (daysFromCivil 2026 1 15)),
    .date (shanghaiDayStart (daysFromCivil 2026 1 16)), .text "笔"]
  orderBySql := some [.column "created_at", .raw " ", .raw "DESC", .raw ", ",
    .column "id", .raw " DESC"]

def borrowedAfterDay : TableSqlQuery where
  whereSql := some [.raw "(", .column "created_at", .raw " >= ", .param 2, .raw ")"]
  params := [.date (shanghaiDayStart (daysFromCivil 2026 1 15)),
    .date (shanghaiDayStart (daysFromCivil 2026 1 16))]
  orderBySql := none

end Wbme.TableQuery.SqlText

import Wbme.OperationLogs.Query
import Wbme.TableQuery.Requests

/-! # Who sees which logs

The personal list and the personal export name their owner as a parameter of the query, and
a parameter gives way to the filter tree. So they keep to the logs of the owner as long as
the tree says nothing about the operator. The department scope gives way to nothing.
-/

namespace Wbme.OperationLogs

open Lib TableQuery

/-- More conditions and more parameters, behind those that are there. -/
def WhereClause.Extends (clause clause' : WhereClause) : Prop :=
  (∃ conditions, clause'.conditions = clause.conditions ++ conditions) ∧
    ∃ params, clause'.params = clause.params ++ params

namespace WhereClause.Extends

variable {a b c : WhereClause}

theorem refl (a : WhereClause) : a.Extends a := ⟨⟨[], by simp⟩, [], by simp⟩

theorem trans (hab : a.Extends b) (hbc : b.Extends c) : a.Extends c := by
  obtain ⟨⟨cs, hcs⟩, ps, hps⟩ := hab
  obtain ⟨⟨cs', hcs'⟩, ps', hps'⟩ := hbc
  exact ⟨⟨cs ++ cs', by rw [hcs', hcs, List.append_assoc]⟩,
    ps ++ ps', by rw [hps', hps, List.append_assoc]⟩

theorem add (a : WhereClause) (predicate : Nat → LogPredicate) (param : LogParam) :
    a.Extends (a.add predicate param) := ⟨⟨_, rfl⟩, _, rfl⟩

theorem addConstant (a : WhereClause) (holds : Bool) : a.Extends (a.addConstant holds) :=
  ⟨⟨_, rfl⟩, [], by simp [WhereClause.addConstant]⟩

end WhereClause.Extends

variable {statement : LogStatement} {env : LogEnvironment} {userId : Nat} {r : UnionRow}

theorem extends_addDepartmentCondition {clause clause' : WhereClause}
    {condition : DepartmentFilterCondition}
    (h : addDepartmentCondition env clause condition = .ok clause') : clause.Extends clause' := by
  unfold addDepartmentCondition at h
  split at h
  · cases h
  · split at h
    · cases h
    · dsimp only at h
      split at h
      · cases h
        exact .addConstant _ _
      · cases h
        exact .add _ _ _

theorem extends_foldlM {env : LogEnvironment} {conditions : List DepartmentFilterCondition}
    {clause clause' : WhereClause}
    (h : conditions.foldlM (addDepartmentCondition env) clause = .ok clause') :
    clause.Extends clause' := by
  induction conditions generalizing clause with
  | nil =>
      cases h
      exact .refl _
  | cons condition conditions ih =>
      rw [List.foldlM_cons] at h
      cases hc : addDepartmentCondition env clause condition with
      | error e => rw [hc] at h; cases h
      | ok next =>
          rw [hc] at h
          exact (extends_addDepartmentCondition hc).trans (ih h)

theorem extends_buildDataScopeFilter (env : LogEnvironment) (clause : WhereClause) :
    clause.Extends (buildDataScopeFilter env clause) := by
  unfold buildDataScopeFilter
  split
  · split
    · exact .addConstant _ _
    · exact .add _ _ _
  · exact .refl _

theorem buildStatement_ok {env : LogEnvironment} {query : OperationLogQuery}
    {statement : LogStatement} (h : buildStatement env query = .ok statement) :
    ∃ tree clause, parseFilters query.filters = .ok tree ∧
      (namedConditions query ((tree.elim [] TableFilterTreeNode.leaves).map (·.field))).Extends
        clause ∧
      statement.clause = buildDataScopeFilter env clause := by
  unfold buildStatement buildWhereClause at h
  cases htree : parseFilters query.filters with
  | error e => rw [htree] at h; cases h
  | ok tree =>
      rw [htree] at h
      dsimp only [bind, Except.bind] at h
      split at h
      · cases h
      · rename_i pair hpair
        split at hpair
        · cases hpair
        · rename_i clause hclause
          cases hpair
          refine ⟨tree, clause, rfl, extends_foldlM hclause, ?_⟩
          dsimp only at h
          split at h
          · cases h
          · split at h
            · cases h
            · split at h
              · cases h
              · cases h
                rfl

/-! ## Outcomes -/

theorem allKept_eq_kept_iff {outcomes : List Outcome} :
    allKept outcomes = .kept ↔ ∀ o ∈ outcomes, o = .kept := by
  induction outcomes with
  | nil => simp [allKept]
  | cons o outcomes ih =>
      cases o with
      | kept => simp [allKept, ih]
      | dropped => simp [allKept]
      | refused => simp [allKept]

theorem kept_condition {env : LogEnvironment} {statement : LogStatement} {r : UnionRow}
    (h : statement.outcome env r = .kept) {p : LogPredicate}
    (hp : p ∈ statement.clause.conditions) :
    p.eval env statement.clause.params r = .ok (some true) := by
  have hkept := allKept_eq_kept_iff.mp h (outcomeOf (p.eval env statement.clause.params r))
    (List.mem_append_left _ (List.mem_map.mpr ⟨p, hp, rfl⟩))
  cases heval : p.eval env statement.clause.params r with
  | error e => rw [heval] at hkept; cases hkept
  | ok value =>
      rw [heval] at hkept
      cases value with
      | none => cases hkept
      | some b =>
          cases b with
          | false => cases hkept
          | true => rfl

/-! ## The owner -/

def isOf (userId : Nat) (r : UnionRow) : Bool := r.log.operatorId == some userId

def NamesOperator (filters : Option (Option Json)) : Prop :=
  ∃ tree, parseFilters filters = .ok (some tree) ∧ "operatorId" ∈ tree.leaves.map (·.field)

/-- Without a condition on the operator in the tree, the first condition is that of the owner,
and it drops the logs of all others. -/
theorem drops_others {filters sorts : Option (Option Json)}
    (accepted : buildStatement env (mineQuery userId filters sorts) = .ok statement)
    (unnamed : ¬ NamesOperator filters) (hr : isOf userId r = false) :
    statement.outcome env r = .dropped := by
  obtain ⟨tree, clause, htree, hextends, hclause⟩ := buildStatement_ok accepted
  have hfields : "operatorId" ∉ (tree.elim [] TableFilterTreeNode.leaves).map (·.field) := by
    cases tree with
    | none => simp
    | some t => exact fun hmem => unnamed ⟨t, htree, hmem⟩
  have hnamed : namedConditions (mineQuery userId filters sorts)
      ((tree.elim [] TableFilterTreeNode.leaves).map (·.field)) =
      ⟨[.compare "operator_id" .eq 1], [.value (.number (userId : ℚ))]⟩ := by
    simp [namedConditions, mineQuery, addNamed, textParam, hfields, WhereClause.add,
      WhereClause.empty]
  have hall := hextends.trans (extends_buildDataScopeFilter env clause)
  rw [hnamed, ← hclause] at hall
  obtain ⟨⟨conditions, hconditions⟩, params, hparams⟩ := hall
  have hfirst : outcomeOf (LogPredicate.eval env statement.clause.params r
      (.compare "operator_id" .eq 1)) = .dropped := by
    have hparam : statement.clause.params[1 - 1]? = some (.value (.number (userId : ℚ))) := by
      rw [hparams]
      rfl
    rw [LogPredicate.eval, hparam]
    cases hid : r.log.operatorId with
    | none => simp [UnionRow.columns, hid, evalCompare, outcomeOf]
    | some id =>
        have hne : ¬ id = userId := by simpa [isOf, hid] using hr
        simp [UnionRow.columns, hid, evalCompare, SqlComparison.holds, outcomeOf, hne]
  rw [LogStatement.outcome, hconditions]
  simp only [List.cons_append, List.map_cons, hfirst, List.nil_append, allKept]

theorem select_filter (drops : ∀ r, isOf userId r = false → statement.outcome env r = .dropped)
    (rows : List UnionRow) :
    statement.select env rows = statement.select env (rows.filter (isOf userId)) := by
  have hrefused : (rows.filter (isOf userId)).any (fun r => statement.outcome env r == .refused) =
      rows.any fun r => statement.outcome env r == .refused := by
    rw [List.any_filter]
    congr 1
    funext r
    cases hr : isOf userId r with
    | true => rfl
    | false => rw [drops r hr]; rfl
  have hkept : (rows.filter (isOf userId)).filter (fun r => statement.outcome env r == .kept) =
      rows.filter fun r => statement.outcome env r == .kept := by
    rw [List.filter_filter]
    congr 1
    funext r
    cases hr : isOf userId r with
    | true => simp
    | false => rw [drops r hr]; rfl
  rw [LogStatement.select, LogStatement.select, hrefused, hkept]

def AgreeOn (userId : Nat) (s₁ s₂ : LogStore) : Prop :=
  ∀ schema, (schemaRows s₁ schema).filter (isOf userId) =
    (schemaRows s₂ schema).filter (isOf userId)

theorem AgreeOn.union {s₁ s₂ : LogStore} (h : AgreeOn userId s₁ s₂) :
    (operationLogsUnion s₁).filter (isOf userId) =
      (operationLogsUnion s₂).filter (isOf userId) := by
  unfold operationLogsUnion
  rw [List.filter_flatMap, List.filter_flatMap]
  exact List.flatMap_congr fun schema _ => h schema

theorem matching_congr (drops : ∀ r, isOf userId r = false → statement.outcome env r = .dropped)
    {s₁ s₂ : LogStore} (agree : AgreeOn userId s₁ s₂) :
    matching env statement s₁ = matching env statement s₂ := by
  unfold matching
  rw [select_filter drops (operationLogsUnion s₁), agree.union,
    ← select_filter drops (operationLogsUnion s₂)]

theorem isOf_of_matching (drops : ∀ r, isOf userId r = false → statement.outcome env r = .dropped)
    {store : LogStore} {rows : List UnionRow} (h : matching env statement store = .ok rows)
    (hr : r ∈ rows) : isOf userId r = true := by
  unfold matching LogStatement.select at h
  split at h
  · cases h
  · cases h
    have hkept := (List.mem_filter.mp hr).2
    by_contra hnot
    rw [drops r (Bool.eq_false_iff.mpr hnot)] at hkept
    cases hkept

/-! ## Lists and exports -/

/-- The orders that the database may choose from, for whatever rows it finds. -/
def LegalChoice (env : LogEnvironment) (statement : LogStatement) (choice : RowChoice) : Prop :=
  ∀ rows, Paging.IsOrdered (orderLe env.collation statement.order) rows (choice rows)

theorem mem_of_mem_page {size i : Nat} {ordered : List UnionRow}
    (h : r ∈ Paging.page size i ordered) : r ∈ ordered :=
  List.mem_of_mem_drop (List.mem_of_mem_take h)

theorem mem_of_mem_fetchBatches {rows : List UnionRow} {total offset : Nat}
    {choice : Nat → RowChoice} (legal : ∀ i, (choice i rows).Perm rows) {r : UnionRow}
    (h : r ∈ fetchBatches rows total choice offset) : r ∈ rows := by
  induction offset using fetchBatches.induct total with
  | case1 offset hlt ih =>
      rw [fetchBatches, if_pos hlt] at h
      rcases List.mem_append.mp h with h | h
      · exact (legal offset).mem_iff.mp (List.mem_of_mem_drop (List.mem_of_mem_take h))
      · exact ih h
  | case2 offset hge =>
      rw [fetchBatches, if_neg hge] at h
      cases h

theorem mem_matching_of_list {env : LogEnvironment} {query : OperationLogQuery}
    {statement : LogStatement} (accepted : buildStatement env query = .ok statement)
    {page pageSize total : Nat} {store : LogStore} {choice : RowChoice}
    (legal : LegalChoice env statement choice) {rows : List UnionRow}
    (h : list env query page pageSize store choice = .ok (rows, total)) :
    ∃ found, matching env statement store = .ok found ∧ ∀ r ∈ rows, r ∈ found := by
  unfold list at h
  rw [accepted] at h
  cases hm : matching env statement store with
  | error e => simp [liftFailure, Except.mapError, hm, bind, Except.bind] at h
  | ok found =>
      refine ⟨found, rfl, ?_⟩
      simp only [liftFailure, Except.mapError, hm, bind, Except.bind, pure, Except.pure,
        Except.ok.injEq, Prod.mk.injEq] at h
      intro r hr
      rw [← h.1] at hr
      exact (legal found).perm.mem_iff.mp (mem_of_mem_page hr)

theorem mem_matching_of_export {env : LogEnvironment} {query : OperationLogQuery}
    {statement : LogStatement} (accepted : buildStatement env query = .ok statement)
    {store : LogStore} {choice : Nat → RowChoice}
    (legal : ∀ i, LegalChoice env statement (choice i)) {rows : List UnionRow}
    (h : export_ env query store choice = .ok rows) :
    ∃ found, matching env statement store = .ok found ∧ ∀ r ∈ rows, r ∈ found := by
  unfold export_ at h
  rw [accepted] at h
  cases hm : matching env statement store with
  | error e => simp [liftFailure, Except.mapError, hm, bind, Except.bind] at h
  | ok found =>
      refine ⟨found, rfl, ?_⟩
      simp only [liftFailure, Except.mapError, hm, bind, Except.bind] at h
      split at h
      · cases h
      · cases h
        intro r hr
        exact mem_of_mem_fetchBatches (fun i => (legal i found).perm) hr

/-! ## The laws -/

/-- The request of a user for its own logs: no function was granted for it. -/
def LogEnvironment.personal (env : LogEnvironment) : LogEnvironment := { env with granted := none }

/-- The request of a viewer whose grant is limited to departments. -/
def LogEnvironment.departmental (env : LogEnvironment) (viewerId : Nat) : LogEnvironment :=
  { env with granted := some (some .department), contextUserId := some viewerId }

/-- The answers to the owner depend on the owner's logs only, and consist of them. -/
def OwnLogsOnly (env : LogEnvironment) (userId : Nat) (filters sorts : Option (Option Json))
    (statement : LogStatement) : Prop :=
  ∀ s₁ s₂, AgreeOn userId s₁ s₂ →
    (∀ page pageSize choice, LegalChoice env statement choice →
      listMine env userId filters sorts page pageSize s₁ choice =
        listMine env userId filters sorts page pageSize s₂ choice ∧
      ∀ rows total, listMine env userId filters sorts page pageSize s₁ choice = .ok (rows, total) →
        ∀ r ∈ rows, isOf userId r = true) ∧
    ∀ choice, (∀ i, LegalChoice env statement (choice i)) →
      exportMine env userId filters sorts s₁ choice =
        exportMine env userId filters sorts s₂ choice ∧
      ∀ rows, exportMine env userId filters sorts s₁ choice = .ok rows →
        ∀ r ∈ rows, isOf userId r = true

/-- Some department of the operator at the time is inside the viewer's closure. -/
def InScope (env : LogEnvironment) (viewerId : Nat) (r : UnionRow) : Prop :=
  ∃ elements, r.log.operatorDepartments = some (.arr elements) ∧
    ∃ element ∈ elements, ∃ n, castId env.textToInt element = .id n ∧
      inClosure (env.closureOfUser viewerId) n = true

def ScopeKept (env : LogEnvironment) (viewerId : Nat) (query : OperationLogQuery) : Prop :=
  ∀ statement, buildStatement (env.departmental viewerId) query = .ok statement →
    ∀ store,
      (∀ page pageSize choice, LegalChoice env statement choice → ∀ rows total,
        list (env.departmental viewerId) query page pageSize store choice = .ok (rows, total) →
          ∀ r ∈ rows, InScope env viewerId r) ∧
      ∀ choice, (∀ i, LegalChoice env statement (choice i)) → ∀ rows,
        export_ (env.departmental viewerId) query store choice = .ok rows →
          ∀ r ∈ rows, InScope env viewerId r

theorem someDepartment_true {textToInt : String → Option Int} {ids : List Nat}
    {elements : List Json} (h : someDepartment textToInt ids elements = .ok true) :
    ∃ element ∈ elements, ∃ n, castId textToInt element = .id n ∧ inClosure ids n = true := by
  induction elements with
  | nil => cases h
  | cons element elements ih =>
      rw [someDepartment] at h
      cases hid : castId textToInt element with
      | failed => simp [hid] at h
      | null =>
          obtain ⟨e, he, hn⟩ := ih (by simpa [hid] using h)
          exact ⟨e, List.mem_cons_of_mem _ he, hn⟩
      | id n =>
          by_cases hin : inClosure ids n = true
          · exact ⟨element, List.mem_cons_self, n, hid, hin⟩
          · obtain ⟨e, he, hn⟩ := ih (by simpa [hid, hin] using h)
            exact ⟨e, List.mem_cons_of_mem _ he, hn⟩

theorem existsDepartment_true {textToInt : String → Option Int} {ids : List Nat}
    {snapshot : Option Json} (h : existsDepartment textToInt ids snapshot = .ok true) :
    ∃ elements, snapshot = some (.arr elements) ∧
      ∃ element ∈ elements, ∃ n, castId textToInt element = .id n ∧ inClosure ids n = true := by
  unfold existsDepartment at h
  split at h
  · cases h
  · exact ⟨_, rfl, someDepartment_true h⟩
  · cases h

theorem inScope_of_kept {env : LogEnvironment} {viewerId : Nat} {query : OperationLogQuery}
    {statement : LogStatement}
    (accepted : buildStatement (env.departmental viewerId) query = .ok statement) {r : UnionRow}
    (hkept : statement.outcome (env.departmental viewerId) r = .kept) : InScope env viewerId r := by
  obtain ⟨_, clause, _, _, hclause⟩ := buildStatement_ok accepted
  cases hids : env.closureOfUser viewerId with
  | nil =>
      have hscope : buildDataScopeFilter (env.departmental viewerId) clause =
          clause.addConstant false := by
        simp only [buildDataScopeFilter, LogEnvironment.departmental, hids]
      rw [hscope] at hclause
      have := kept_condition hkept (p := .constant false) (by
        rw [hclause]
        exact List.mem_append_right _ (List.mem_singleton.mpr rfl))
      cases this
  | cons id ids =>
      have hscope : buildDataScopeFilter (env.departmental viewerId) clause =
          clause.add (.departments false) (.ids (id :: ids)) := by
        simp only [buildDataScopeFilter, LogEnvironment.departmental, hids]
      rw [hscope] at hclause
      have heval := kept_condition hkept
        (p := .departments false (clause.params.length + 1)) (by
          rw [hclause]
          exact List.mem_append_right _ (List.mem_singleton.mpr rfl))
      have hparam : statement.clause.params[clause.params.length + 1 - 1]? =
          some (.ids (id :: ids)) := by
        rw [hclause]
        simp [WhereClause.add]
      rw [LogPredicate.eval, hparam] at heval
      have heval : ((existsDepartment env.textToInt (id :: ids) r.log.operatorDepartments).map
          fun b => some (b != false)) = .ok (some true) := heval
      rw [InScope, hids]
      refine existsDepartment_true ?_
      cases hexists : existsDepartment env.textToInt (id :: ids) r.log.operatorDepartments with
      | error e => rw [hexists] at heval; cases heval
      | ok b =>
          rw [hexists] at heval
          cases b with
          | true => rfl
          | false => cases heval

theorem kept_of_matching {store : LogStore} {rows : List UnionRow}
    (h : matching env statement store = .ok rows) (hr : r ∈ rows) : statement.outcome env r = .kept := by
  unfold matching LogStatement.select at h
  split at h
  · cases h
  · cases h
    exact beq_iff_eq.mp (List.mem_filter.mp hr).2

theorem scopeKept (env : LogEnvironment) (viewerId : Nat) (query : OperationLogQuery) :
    ScopeKept env viewerId query := by
  intro statement accepted store
  constructor
  · intro page pageSize choice legal rows total h r hr
    obtain ⟨found, hfound, hsub⟩ := mem_matching_of_list accepted legal h
    exact inScope_of_kept accepted (kept_of_matching hfound (hsub r hr))
  · intro choice legal rows h r hr
    obtain ⟨found, hfound, hsub⟩ := mem_matching_of_export accepted legal h
    exact inScope_of_kept accepted (kept_of_matching hfound (hsub r hr))

/-! ## What the tree may say -/

def singleStore (r : UnionRow) : LogStore := fun schema =>
  if schema = r.schema then Table.empty.insert r.id r.log else Table.empty

theorem union_singleStore (r : UnionRow) : operationLogsUnion (singleStore r) = [r] := by
  obtain ⟨schema, id, log⟩ := r
  cases schema <;> rfl

def emptyStore : LogStore := fun _ => Table.empty

theorem agreeOn_singleStore (hr : isOf userId r = false) :
    AgreeOn userId emptyStore (singleStore r) := by
  intro schema
  by_cases h : schema = r.schema
  · subst h
    have : schemaRows (singleStore r) r.schema = [r] := by
      rw [schemaRows, singleStore, if_pos rfl]
      rfl
    rw [this, List.filter_cons_of_neg (by simp [hr])]
    rfl
  · have : schemaRows (singleStore r) schema = [] := by
      rw [schemaRows, singleStore, if_neg h]
      rfl
    rw [this]
    rfl

theorem drops_of_ownLogsOnly {filters sorts : Option (Option Json)}
    (accepted : buildStatement env (mineQuery userId filters sorts) = .ok statement)
    (h : OwnLogsOnly env userId filters sorts statement) (hr : isOf userId r = false) :
    statement.outcome env r = .dropped := by
  have horder := totalPreorder_orderLe env.collation statement.order
  have hlegal : LegalChoice env statement fun rows =>
      rows.mergeSort (orderLe env.collation statement.order) :=
    fun rows => Paging.isOrdered_mergeSort horder rows
  have hequal := ((h _ _ (agreeOn_singleStore hr)).1 1 20 _ hlegal).1
  have hempty : matching env statement emptyStore = .ok [] := rfl
  unfold listMine list at hequal
  rw [accepted] at hequal
  simp only [liftFailure, Except.mapError, bind, Except.bind, hempty] at hequal
  cases hr' : statement.outcome env r with
  | dropped => rfl
  | refused =>
      have : matching env statement (singleStore r) = .error .database := by
        simp [matching, LogStatement.select, union_singleStore, hr']
      rw [this] at hequal
      cases hequal
  | kept =>
      have : matching env statement (singleStore r) = .ok [r] := by
        simp [matching, LogStatement.select, union_singleStore, hr']
      rw [this] at hequal
      simp [pure, Except.pure] at hequal

theorem ownLogsOnly_of_drops {filters sorts : Option (Option Json)}
    (accepted : buildStatement env (mineQuery userId filters sorts) = .ok statement)
    (drops : ∀ r, isOf userId r = false → statement.outcome env r = .dropped) :
    OwnLogsOnly env userId filters sorts statement := by
  intro s₁ s₂ agree
  have hmatching := matching_congr drops agree
  constructor
  · intro page pageSize choice legal
    constructor
    · unfold listMine list
      rw [accepted]
      simp only [liftFailure, Except.mapError, bind, Except.bind, hmatching]
    · intro rows total h r hr
      obtain ⟨found, hfound, hsub⟩ := mem_matching_of_list accepted legal h
      exact isOf_of_matching drops hfound (hsub r hr)
  · intro choice legal
    constructor
    · unfold exportMine export_
      rw [accepted]
      simp only [liftFailure, Except.mapError, bind, Except.bind, hmatching]
    · intro rows h r hr
      obtain ⟨found, hfound, hsub⟩ := mem_matching_of_export accepted legal h
      exact isOf_of_matching drops hfound (hsub r hr)

def quietEnvironment : LogEnvironment where
  granted := none
  contextUserId := some 1
  closureOf := fun id => [id]
  closureOfUser := fun _ => []
  now := 0
  maxRows := 100000
  folding := asciiFolding
  textToInt := String.toInt?
  collation := fun s => s.toList.map Char.toNat

def plainStatement : LogStatement :=
  ⟨⟨[.compare "operator_id" .eq 1], [.value (.number ((1 : Nat) : Int))]⟩, ⟨none, []⟩,
    [⟨"created_at", .desc⟩, ⟨"id", .desc⟩]⟩

/-- The filter `operatorId IS_NOT_EMPTY`. -/
def someOperator : Option (Option Json) :=
  some (some (.obj [("logic", .str "AND"), ("conditions", .arr [.obj [("field", .str "operatorId"),
    ("operator", .str "IS_NOT_EMPTY"), ("value", .str "")]])]))

def operatorStatement : LogStatement :=
  ⟨.empty, ⟨some (.isNotNull (.column "operator_id")), []⟩, [⟨"created_at", .desc⟩, ⟨"id", .desc⟩]⟩

/-- A log of the second user. -/
def othersLog : UnionRow :=
  ⟨.hr, 1, ⟨some 2, some "Other", none, "HR", "org", "UPDATE", "moved", none, 0⟩⟩

end Wbme.OperationLogs

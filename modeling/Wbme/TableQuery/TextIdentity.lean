import Wbme.TableQuery.Placeholders
import Wbme.TableQuery.Requests

/-!
# The text does not depend on values

Two requests that differ in the values of their conditions compile to the same text, and a
column expression in the text is one of the resource's own. The exception are predicates
that a resource writes itself: such a predicate may pick its text by the value.
-/

namespace Wbme.TableQuery.SqlText

variable {α β : Type} {now now' : Int} {parameterOffset : Nat}
  {fields : String → Option TableSqlField}

/-! ## Two runs of the compiler -/

/-- Two compilations that both succeed, behind equally many parameters, return related
results and register equally many. -/
def Agree (R : α → α → Prop) (m m' : Compile α) : Prop :=
  ∀ params params' a rest a' rest', params.length = params'.length →
    m params = .ok (a, rest) → m' params' = .ok (a', rest') →
    R a a' ∧ rest.length = rest'.length

namespace Agree

variable {R : α → α → Prop} {S : β → β → Prop} {m m' : Compile α} {f f' : α → Compile β}

theorem pure {a a' : α} (h : R a a') : Agree R (pure a) (pure a') := by
  intro params params' b rest b' rest' hlen hb hb'
  cases hb
  cases hb'
  exact ⟨h, hlen⟩

theorem refuse_left {message : String} : Agree R (refuse message) m' := by
  intro params params' b rest b' rest' hlen hb
  cases hb

theorem refuse_right {message : String} : Agree R m (refuse message) := by
  intro params params' b rest b' rest' hlen hb hb'
  cases hb'

theorem bind (hm : Agree R m m') (hf : ∀ a a', R a a' → Agree S (f a) (f' a')) :
    Agree S (m >>= f) (m' >>= f') := by
  intro params params' b rest b' rest' hlen hb hb'
  obtain ⟨a, mid, ha, hb⟩ := bind_ok hb
  obtain ⟨a', mid', ha', hb'⟩ := bind_ok hb'
  obtain ⟨hR, hmid⟩ := hm _ _ _ _ _ _ hlen ha ha'
  exact hf a a' hR _ _ _ _ _ _ hmid hb hb'

theorem mono {R' : α → α → Prop} (h : Agree R m m') (hR : ∀ a a', R a a' → R' a a') :
    Agree R' m m' := by
  intro params params' a rest a' rest' hlen ha ha'
  obtain ⟨hr, hrest⟩ := h _ _ _ _ _ _ hlen ha ha'
  exact ⟨hR a a' hr, hrest⟩

theorem readScalar (value value' : String) (type : FieldType) :
    Agree (fun _ _ => True) (readScalar value type) (TableQuery.readScalar value' type) := by
  intro params params' a rest a' rest' hlen ha ha'
  rw [(readScalar_ok ha).1, (readScalar_ok ha').1]
  exact ⟨trivial, hlen⟩

theorem nextParam (value value' : Value) :
    Agree (fun p p' => p = p' ∧ ∃ n, p = .param n) (nextParam parameterOffset value)
      (SqlText.nextParam parameterOffset value') := by
  intro params params' a rest a' rest' hlen ha ha'
  cases ha
  cases ha'
  exact ⟨⟨by rw [hlen], _, rfl⟩, by simp [hlen]⟩

end Agree

def SameText (e : String) (text text' : List SqlToken) : Prop :=
  text = text' ∧ ∀ e', SqlToken.column e' ∈ text → e' = e

section Columns

variable {c c' : TableFilterCondition} {e : String} {p : SqlToken} {k : Nat}

theorem agree_text {text : List SqlToken} (h : ∀ e', SqlToken.column e' ∈ text → e' = e) :
    Agree (SameText e) (pure text) (pure text) :=
  Agree.pure ⟨rfl, h⟩

theorem compileText_agree (hop : c.operator = c'.operator) :
    Agree (SameText e) (compileText c (.column e) (.param k))
      (compileText c' (.column e) (.param k)) := by
  unfold compileText
  rw [← hop]
  cases c.operator <;> first
    | exact Agree.refuse_left
    | exact agree_text (by simp)

theorem compileEnum_agree (hop : c.operator = c'.operator) :
    Agree (SameText e) (compileEnum c (.column e) (.param k))
      (compileEnum c' (.column e) (.param k)) := by
  unfold compileEnum
  rw [← hop]
  cases c.operator <;> first
    | exact Agree.refuse_left
    | exact agree_text (by simp)

theorem agree_range {v v' : Value} {text : SqlToken → List SqlToken}
    (h : ∀ n e', SqlToken.column e' ∈ text (.param n) → e' = e) :
    Agree (SameText e) (do return text (← nextParam parameterOffset v))
      (do return text (← nextParam parameterOffset v')) := by
  refine (Agree.nextParam v v').bind ?_
  intro p p' hp
  obtain ⟨rfl, n, rfl⟩ := hp
  exact agree_text (h n)

theorem compileNumber_agree (hop : c.operator = c'.operator) (type : FieldType)
    (value value' : Value) :
    Agree (SameText e) (compileNumber parameterOffset type c (.column e) (.param k) value)
      (compileNumber parameterOffset type c' (.column e) (.param k) value') := by
  unfold compileNumber
  rw [← hop]
  cases operationSql c.operator with
  | some operator => exact agree_text (by simp)
  | none =>
      by_cases hbetween : c.operator = .between
      · simp only [if_pos hbetween]
        cases valueEndOf c with
        | none => exact Agree.refuse_left
        | some valueEnd =>
            cases valueEndOf c' with
            | none => exact Agree.refuse_right
            | some valueEnd' =>
                refine (Agree.readScalar valueEnd valueEnd' type).bind ?_
                intro last last' _
                cases value <;> cases last <;> try exact Agree.refuse_left
                cases value' <;> cases last' <;> try exact Agree.refuse_right
                next start last start' last' =>
                  by_cases hlt : last < start
                  · simp only [if_pos hlt]
                    exact Agree.refuse_left
                  · by_cases hlt' : last' < start'
                    · simp only [if_pos hlt']
                      exact Agree.refuse_right
                    · simp only [if_neg hlt, if_neg hlt']
                      exact agree_range (by simp)
      · simp only [if_neg hbetween]
        exact Agree.refuse_left

theorem compileDate_agree (hop : c.operator = c'.operator) (value value' : Value) :
    Agree (SameText e) (compileDate parameterOffset c (.column e) (.param k) value)
      (compileDate parameterOffset c' (.column e) (.param k) value') := by
  unfold compileDate
  rw [← hop]
  cases value <;> try exact Agree.refuse_left
  cases value' <;> try exact Agree.refuse_right
  next start start' =>
    cases c.operator <;> try exact Agree.refuse_left
    case equals => exact agree_range (by simp)
    case notEquals => exact agree_range (by simp)
    case before => exact agree_text (by simp)
    case after => exact agree_range (by simp)
    case between =>
      dsimp only
      cases valueEndOf c with
      | none => exact Agree.refuse_left
      | some valueEnd =>
          cases valueEndOf c' with
          | none => exact Agree.refuse_right
          | some valueEnd' =>
              refine (Agree.readScalar valueEnd valueEnd' .date).bind ?_
              intro last last' _
              cases last <;> try exact Agree.refuse_left
              cases last' <;> try exact Agree.refuse_right
              next last last' =>
                by_cases hlt : last < start
                · simp only [if_pos hlt]
                  exact Agree.refuse_left
                · by_cases hlt' : last' < start'
                  · simp only [if_pos hlt']
                    exact Agree.refuse_right
                  · simp only [if_neg hlt, if_neg hlt']
                    exact agree_range (by simp)

theorem relativeDateRange_agree (operator : TableOperator) :
    Agree (fun _ _ => True)
      (fun params => (relativeDateRange operator now).map (·, params) : Compile (Int × Int))
      (fun params => (relativeDateRange operator now').map (·, params)) := by
  intro params params' a rest a' rest' hlen ha ha'
  cases hr : relativeDateRange operator now with
  | error e => rw [hr] at ha; cases ha
  | ok r =>
      cases hr' : relativeDateRange operator now' with
      | error e => rw [hr'] at ha'; cases ha'
      | ok r' =>
          rw [hr] at ha
          rw [hr'] at ha'
          cases ha
          cases ha'
          exact ⟨trivial, hlen⟩

theorem compileColumn_agree (hop : c.operator = c'.operator) (type : Option FieldType)
    (column : Option String) :
    Agree (SameText (column.getD "undefined"))
      (compileColumn now parameterOffset ⟨column, type, none⟩ c)
      (compileColumn now' parameterOffset ⟨column, type, none⟩ c') := by
  unfold compileColumn
  rw [← hop]
  by_cases hless : valuelessOperators.contains c.operator = true
  · simp only [if_pos hless]
    refine agree_text fun e' he' => ?_
    unfold compileValueless at he'
    split at he' <;> split at he' <;> simpa using he'
  simp only [if_neg hless]
  by_cases hrelative : relativeDateOperators.contains c.operator = true
  · simp only [if_pos hrelative]
    by_cases htype : type ≠ some .date
    · simp only [if_pos htype]
      exact Agree.refuse_left
    · simp only [if_neg htype]
      refine (relativeDateRange_agree c.operator).bind ?_
      intro range range' _
      refine (Agree.nextParam _ _).bind ?_
      intro p p' hp
      obtain ⟨rfl, n, rfl⟩ := hp
      let text (upper : SqlToken) : List SqlToken := [.column (column.getD "undefined"),
        .raw " >= ", .param n, .raw " AND ", .column (column.getD "undefined"), .raw " < ", upper]
      have htext : ∀ k e', SqlToken.column e' ∈ text (.param k) →
          e' = column.getD "undefined" := by simp [text]
      exact agree_range htext
  · simp only [if_neg hrelative]
    refine (Agree.readScalar _ _ _).bind ?_
    intro value value' _
    refine (Agree.nextParam _ _).bind ?_
    intro p p' hp
    obtain ⟨rfl, n, rfl⟩ := hp
    cases type with
    | none => exact Agree.refuse_left
    | some type =>
        cases type with
        | text => exact compileText_agree hop
        | «enum» => exact compileEnum_agree hop
        | date => exact compileDate_agree hop value value'
        | number => exact compileNumber_agree hop .number value value'
        | time => exact compileNumber_agree hop .time value value'

end Columns

/-! ## Predicates of a field's own -/

/-- Two compilers that both succeed, behind equally many parameters, return one text. -/
def SqlCompiler.SameText (compiler compiler' : SqlCompiler) : Prop :=
  ∀ parameterOffset params params' text rest text' rest', params.length = params'.length →
    compiler.run parameterOffset params = .ok (some text, rest) →
    compiler'.run parameterOffset params' = .ok (some text', rest') → text = text'

variable (c : TableFilterCondition) (compiler : SqlCompiler) (failure : Failure)

theorem SqlCompiler.sameText_unsupported_left : SqlCompiler.unsupported.SameText compiler := by
  intro parameterOffset params params' text rest text' rest' hlen h
  cases h

theorem SqlCompiler.sameText_unsupported_right : compiler.SameText .unsupported := by
  intro parameterOffset params params' text rest text' rest' hlen h h'
  cases h'

theorem SqlCompiler.sameText_failed_left (compiler : SqlCompiler) :
    (SqlCompiler.failed failure).SameText compiler := by
  intro parameterOffset params params' text rest text' rest' hlen h
  cases h

theorem SqlCompiler.sameText_failed_right (compiler : SqlCompiler) :
    compiler.SameText (.failed failure) := by
  intro parameterOffset params params' text rest text' rest' hlen h h'
  cases h'

theorem SqlCompiler.sameText_done (text : List SqlToken) :
    (SqlCompiler.done text).SameText (.done text) := by
  intro parameterOffset params params' text rest text' rest' hlen h h'
  cases h
  cases h'
  rfl

theorem SqlCompiler.sameText_nextParam {v v' : Value} {k k' : SqlToken → SqlCompiler}
    (h : ∀ p, (k p).SameText (k' p)) : (SqlCompiler.nextParam v k).SameText (.nextParam v' k') := by
  intro parameterOffset params params' text rest text' rest' hlen ht ht'
  simp only [SqlCompiler.run] at ht ht'
  rw [← hlen] at ht'
  exact h _ _ _ _ _ _ _ _ (by simp [hlen]) ht ht'

/-- The text of a predicate does not depend on the values of its condition. -/
def SqlFieldPredicate.ValueFree (own : SqlFieldPredicate) : Prop :=
  ∀ context context' : SqlConditionContext,
    context.condition.operator = context'.condition.operator →
    (own.compile context).SameText (own.compile context')

theorem SqlCompiler.run_agree (compiler : SqlCompiler) :
    Agree Eq (compiler.run parameterOffset) (compiler.run parameterOffset) := by
  induction compiler with
  | failed failure =>
      intro params params' a rest a' rest' hlen ha
      cases ha
  | unsupported =>
      intro params params' a rest a' rest' hlen ha ha'
      cases ha
      cases ha'
      exact ⟨rfl, hlen⟩
  | done text =>
      intro params params' a rest a' rest' hlen ha ha'
      cases ha
      cases ha'
      exact ⟨rfl, hlen⟩
  | nextParam value k ih =>
      intro params params' a rest a' rest' hlen ha ha'
      simp only [SqlCompiler.run] at ha ha'
      rw [← hlen] at ha'
      exact ih _ _ _ _ _ _ _ (by simp [hlen]) ha ha'

theorem readScalar_map_agree (value : String) (type : FieldType) :
    Agree Eq (some <$> readScalar value type : Compile (Option Value))
      (some <$> readScalar value type) := by
  intro params params' a rest a' rest' hlen ha ha'
  cases hs : scalarValue value type with
  | error e =>
      simp only [Functor.map, StateT.map, readScalar, hs, Except.map, Bind.bind, Except.bind] at ha
      cases ha
  | ok v =>
      simp only [Functor.map, StateT.map, readScalar, hs, Except.map, Bind.bind, Except.bind]
        at ha ha'
      cases ha
      cases ha'
      exact ⟨rfl, hlen⟩

theorem readValue_agree (type : FieldType) : Agree Eq (readValue c type) (readValue c type) := by
  unfold readValue
  split
  · exact Agree.pure rfl
  · exact readScalar_map_agree _ type

theorem readValueEnd_agree (type : FieldType) :
    Agree Eq (readValueEnd c type) (readValueEnd c type) := by
  unfold readValueEnd
  split
  · exact Agree.pure rfl
  · exact readScalar_map_agree _ type

theorem compilePredicate_agree (type : FieldType) (compile : SqlConditionContext → SqlCompiler)
    (c : TableFilterCondition) :
    Agree Eq (compilePredicate parameterOffset type compile c)
      (compilePredicate parameterOffset type compile c) := by
  unfold compilePredicate
  refine (readValue_agree c type).bind fun value value' hvalue => ?_
  refine (readValueEnd_agree c type).bind fun valueEnd valueEnd' hend => ?_
  obtain rfl := hvalue
  obtain rfl := hend
  refine (SqlCompiler.run_agree _).bind fun o o' ho => ?_
  obtain rfl := ho
  cases o with
  | none => exact Agree.refuse_left
  | some text => exact Agree.pure rfl

theorem compilePredicate_ok {own : SqlFieldPredicate} {c : TableFilterCondition}
    {params rest : List Value} {text : List SqlToken}
    (h : compilePredicate parameterOffset own.type own.compile c params = .ok (text, rest)) :
    ∃ context : SqlConditionContext, context.condition = c ∧
      (own.compile context).run parameterOffset params = .ok (some text, rest) := by
  unfold compilePredicate at h
  obtain ⟨value, mid, hvalue, h⟩ := bind_ok h
  obtain ⟨valueEnd, mid', hend, h⟩ := bind_ok h
  obtain ⟨o, mid'', hrun, h⟩ := bind_ok h
  obtain rfl := readValue_ok hvalue
  obtain rfl := readValueEnd_ok hend
  cases o with
  | none => cases h
  | some text' =>
      cases h
      exact ⟨_, rfl, hrun⟩

/-- Two conditions on a predicate whose text is free of values. Equal texts take equally many
parameters, as each mentions just its own. -/
theorem SqlFieldPredicate.ValueFree.agree {own : SqlFieldPredicate} (h : own.ValueFree)
    {c c' : TableFilterCondition} (hop : c.operator = c'.operator) :
    Agree Eq (compilePredicate parameterOffset own.type own.compile c)
      (compilePredicate parameterOffset own.type own.compile c') := by
  intro params params' text rest text' rest' hlen htext htext'
  obtain ⟨context, rfl, hrun⟩ := compilePredicate_ok htext
  obtain ⟨context', rfl, hrun'⟩ := compilePredicate_ok htext'
  have hsame := h context context' hop _ _ _ _ _ _ _ hlen hrun hrun'
  refine ⟨hsame, ?_⟩
  obtain ⟨values, hvalues⟩ := (own.compile context).run_registers hrun
  obtain ⟨values', hvalues'⟩ := (own.compile context').run_registers hrun'
  have hlow : params.length ≤ rest.length := by simp [hvalues]
  have hlow' : params'.length ≤ rest'.length := by simp [hvalues']
  have hmentions := own.mentions context parameterOffset params text rest hrun
  have hmentions' := own.mentions context' parameterOffset params' text' rest' hrun'
  rw [← hsame, ← hlen] at hmentions'
  have hlast := (hmentions (parameterOffset + rest.length)).symm.trans
    (hmentions' (parameterOffset + rest.length))
  have hlast' := (hmentions (parameterOffset + rest'.length)).symm.trans
    (hmentions' (parameterOffset + rest'.length))
  omega

/-! ## Trees -/

mutual

/-- Trees of one shape, with related conditions in the same places. -/
def Resembles (R : TableFilterCondition → TableFilterCondition → Prop) :
    TableFilterTreeNode → TableFilterTreeNode → Prop
  | .condition c, .condition c' => R c c'
  | .group logic nodes, .group logic' nodes' => logic = logic' ∧ ResembleAll R nodes nodes'
  | _, _ => False

def ResembleAll (R : TableFilterCondition → TableFilterCondition → Prop) :
    List TableFilterTreeNode → List TableFilterTreeNode → Prop
  | [], [] => True
  | node :: nodes, node' :: nodes' => Resembles R node node' ∧ ResembleAll R nodes nodes'
  | _, _ => False

end

def SameButValues (c c' : TableFilterCondition) : Prop :=
  c.field = c'.field ∧ c.operator = c'.operator

/-- Conditions on a predicate of the field's own that picks its text by the value have the
same values. -/
def Steady (fields : String → Option TableSqlField) (c c' : TableFilterCondition) : Prop :=
  SameButValues c c' ∧
    ∀ own, fields c.field = some (.predicate own) → c = c' ∨ own.ValueFree

theorem compileSqlCondition_agree {c c' : TableFilterCondition} (h : Steady fields c c') :
    Agree Eq (compileSqlCondition now parameterOffset fields c)
      (compileSqlCondition now' parameterOffset fields c') := by
  obtain ⟨⟨hfield, hop⟩, hown⟩ := h
  unfold compileSqlCondition lookup
  rw [← hfield]
  cases hf : fields c.field with
  | none =>
      cases inherited? c.field with
      | none => exact Agree.refuse_left
      | some member => exact (compileColumn_agree hop none none).mono fun _ _ h => h.1
  | some field =>
      cases field with
      | column expression type =>
          exact (compileColumn_agree hop (some type) (some expression)).mono fun _ _ h => h.1
      | predicate own =>
          rcases hown own hf with hsame | hfree
          · subst hsame
            exact compilePredicate_agree own.type own.compile c
          · exact hfree.agree hop

mutual

theorem compileNode_agree : ∀ {node node' : TableFilterTreeNode},
    Resembles (Steady fields) node node' →
    Agree Eq (compileNode now parameterOffset fields node)
      (compileNode now' parameterOffset fields node')
  | .condition c, .condition c', h => compileSqlCondition_agree h
  | .group logic nodes, .group logic' nodes', h => by
      obtain ⟨rfl, hnodes⟩ := h
      refine (compileNodes_agree hnodes).bind fun texts texts' htexts => ?_
      obtain rfl := htexts
      exact Agree.pure rfl
  | .condition c, .group logic' nodes', h => False.elim h
  | .group logic nodes, .condition c', h => False.elim h

theorem compileNodes_agree : ∀ {nodes nodes' : List TableFilterTreeNode},
    ResembleAll (Steady fields) nodes nodes' →
    Agree Eq (compileNodes now parameterOffset fields nodes)
      (compileNodes now' parameterOffset fields nodes')
  | [], [], _ => Agree.pure rfl
  | node :: nodes, node' :: nodes', h => by
      refine (compileNode_agree h.1).bind fun text text' htext => ?_
      refine (compileNodes_agree h.2).bind fun texts texts' htexts => ?_
      obtain rfl := htext
      obtain rfl := htexts
      exact Agree.pure rfl
  | [], _ :: _, h => False.elim h
  | _ :: _, [], h => False.elim h

end

/-! ## Column expressions -/

/-- An expression that the resource gives for a field, or writes into a field's predicate. -/
def Lists (fields : String → Option TableSqlField) (e : String) : Prop :=
  (∃ name type, fields name = some (.column e type)) ∨
  ∃ name own context parameterOffset params text rest, fields name = some (.predicate own) ∧
    (own.compile context).run parameterOffset params = .ok (some text, rest) ∧
    SqlToken.column e ∈ text

def ListsAll (fields : String → Option TableSqlField) (text : List SqlToken) : Prop :=
  ∀ e, SqlToken.column e ∈ text → Lists fields e

theorem compileSqlCondition_lists {c : TableFilterCondition} {params rest : List Value}
    {text : List SqlToken} (hknown : (fields c.field).isSome = true)
    (h : compileSqlCondition now parameterOffset fields c params = .ok (text, rest)) :
    ListsAll fields text := by
  intro e he
  unfold compileSqlCondition lookup at h
  obtain ⟨field, hfield⟩ := Option.isSome_iff_exists.mp hknown
  rw [hfield] at h
  cases field with
  | column expression type =>
      have hsame := compileColumn_agree (c := c) rfl (some type) (some expression)
        params params _ _ _ _ rfl h h
      obtain rfl : e = expression := hsame.1.2 e he
      exact Or.inl ⟨c.field, type, hfield⟩
  | predicate own =>
      obtain ⟨context, -, hrun⟩ := compilePredicate_ok h
      exact Or.inr ⟨c.field, own, context, _, _, _, _, hfield, hrun, he⟩

theorem listsAll_joinTexts {separator : String} {texts : List (List SqlToken)}
    (h : ∀ text ∈ texts, ListsAll fields text) : ListsAll fields (joinTexts separator texts) := by
  induction texts with
  | nil =>
      intro e he
      cases he
  | cons text texts ih =>
      cases texts with
      | nil => simpa [joinTexts, List.intercalate] using h text List.mem_cons_self
      | cons text' texts =>
          have hjoin : joinTexts separator (text :: text' :: texts) =
              text ++ .raw separator :: joinTexts separator (text' :: texts) := by
            simp [joinTexts, List.intercalate]
          intro e he
          rw [hjoin, List.mem_append, List.mem_cons] at he
          rcases he with he | he | he
          · exact h text List.mem_cons_self e he
          · cases he
          · exact ih (fun t ht => h t (List.mem_cons_of_mem text ht)) e he

mutual

theorem compileNode_lists (node : TableFilterTreeNode) {params rest : List Value}
    {text : List SqlToken} (hknown : ∀ c ∈ node.leaves, (fields c.field).isSome = true)
    (h : compileNode now parameterOffset fields node params = .ok (text, rest)) :
    ListsAll fields text := by
  cases node with
  | condition c => exact compileSqlCondition_lists (hknown c List.mem_cons_self) h
  | group logic nodes =>
      obtain ⟨texts, mid, htexts, h⟩ := bind_ok h
      cases h
      have hjoin := @listsAll_joinTexts fields (Logic.word logic) texts
        (compileNodes_lists nodes hknown htexts)
      intro e he
      simp only [List.cons_append, List.nil_append, List.mem_cons, List.mem_append,
        List.not_mem_nil, or_false, reduceCtorEq, false_or] at he
      exact hjoin e he

theorem compileNodes_lists (nodes : List TableFilterTreeNode) {params rest : List Value}
    {texts : List (List SqlToken)} (hknown : ∀ c ∈ leavesList nodes, (fields c.field).isSome = true)
    (h : compileNodes now parameterOffset fields nodes params = .ok (texts, rest)) :
    ∀ text ∈ texts, ListsAll fields text := by
  cases nodes with
  | nil =>
      cases h
      intro text htext
      cases htext
  | cons node nodes =>
      obtain ⟨text, mid, htext, h⟩ := bind_ok h
      obtain ⟨texts', mid', htexts, h⟩ := bind_ok h
      cases h
      intro t ht
      rcases List.mem_cons.mp ht with rfl | ht
      · exact compileNode_lists node (fun c hc => hknown c (List.mem_append_left _ hc)) htext
      · exact compileNodes_lists nodes (fun c hc => hknown c (List.mem_append_right _ hc)) htexts
          t ht

end

theorem lookup_column {name e : String} {definition : Definition}
    (h : lookup fields name = some definition) (he : definition.column = some e) :
    Lists fields e := by
  unfold lookup at h
  cases hfield : fields name with
  | none =>
      rw [hfield] at h
      obtain ⟨member, -, hmember⟩ := Option.map_eq_some_iff.mp h
      subst hmember
      cases he
  | some field =>
      rw [hfield] at h
      cases h
      cases field with
      | column expression type =>
          cases he
          exact Or.inl ⟨name, type, hfield⟩
      | predicate own => cases he

theorem compileSort_lists {sort : TableSort} {text : List SqlToken}
    (h : compileSort fields sort = .ok text) : ListsAll fields text := by
  unfold compileSort at h
  cases hlookup : lookup fields sort.field with
  | none => rw [hlookup] at h; cases h
  | some definition =>
      cases hcolumn : definition.column with
      | none => simp only [hlookup, hcolumn] at h; cases h
      | some column =>
          simp only [hlookup, hcolumn] at h
          cases h
          intro e he
          obtain rfl : e = column := by simpa using he
          exact lookup_column hlookup hcolumn

theorem idSort_lists (sorts : List TableSort) :
    ∀ text ∈ idSort fields sorts, ListsAll fields text := by
  intro text htext
  unfold idSort at htext
  split at htext
  · cases htext
  split at htext
  · cases htext
  · next column hcolumn =>
      obtain ⟨definition, hlookup, hdefinition⟩ := Option.bind_eq_some_iff.mp hcolumn
      split at htext
      · cases htext
      · rw [List.mem_singleton] at htext
        subst htext
        intro e he
        obtain rfl : e = column := by simpa using he
        exact lookup_column hlookup hdefinition

theorem compileSorts_lists {sorts : List TableSort} {order : Option (List SqlToken)}
    (h : compileSorts fields sorts = .ok order) : ListsAll fields (order.getD []) := by
  unfold compileSorts at h
  cases hparts : sorts.mapM (compileSort fields) with
  | error e => simp only [hparts, Bind.bind, Except.bind] at h; cases h
  | ok parts =>
      simp only [hparts, Bind.bind, Except.bind] at h
      have hlists : ∀ part ∈ parts, ListsAll fields part := by
        intro part hpart
        obtain ⟨sort, -, hsort⟩ := Lib.mem_mapM hparts hpart
        exact compileSort_lists hsort
      cases parts with
      | nil =>
          cases h
          intro e he
          cases he
      | cons part parts =>
          cases h
          refine listsAll_joinTexts fun text htext => ?_
          rcases List.mem_append.mp htext with htext | htext
          · exact hlists text htext
          · exact idSort_lists sorts text htext

/-! ## Requests -/

def RequestsResemble (R : TableFilterCondition → TableFilterCondition → Prop)
    (filters filters' : Option (Option Json)) : Prop :=
  ∃ tree tree', parseFilters filters = .ok (some tree) ∧
    parseFilters filters' = .ok (some tree') ∧ Resembles R tree tree'

def SameTexts (query query' : TableSqlQuery) : Prop :=
  query.whereSql.map render = query'.whereSql.map render ∧
    query.orderBySql.map render = query'.orderBySql.map render

/-- Two accepted requests that differ in values only have the same text, as long as the
conditions on a predicate that picks its text by the value have the same values too. The
column expressions of an accepted request, on fields of the resource's own, are listed by
the resource. -/
theorem text_of_requests (parameterOffset : Nat) (fields : String → Option TableSqlField) :
    (∀ now now' filters filters' sorts query query',
      buildTableSqlQuery now parameterOffset fields filters sorts = .ok query →
      buildTableSqlQuery now' parameterOffset fields filters' sorts = .ok query' →
      RequestsResemble (Steady fields) filters filters' → SameTexts query query') ∧
    (∀ now filters sorts query,
      buildTableSqlQuery now parameterOffset fields filters sorts = .ok query →
      (∀ c ∈ conditionsIn filters, (fields c.field).isSome = true) →
      ListsAll fields (query.whereSql.getD [] ++ query.orderBySql.getD [])) := by
  constructor
  · rintro now now' filters filters' sorts query query' h h' ⟨tree, tree', htree, htree', hres⟩
    obtain ⟨t, parsed, ht, hparsed, horder, hcompiles⟩ := buildTableSqlQuery_ok h
    obtain ⟨t', parsed', ht', hparsed', horder', hcompiles'⟩ := buildTableSqlQuery_ok h'
    cases htree.symm.trans ht
    cases htree'.symm.trans ht'
    cases hparsed.symm.trans hparsed'
    obtain ⟨text, hwhere, hnode⟩ := hcompiles
    obtain ⟨text', hwhere', hnode'⟩ := hcompiles'
    have hsame := (compileNode_agree hres _ _ _ _ _ _ rfl hnode hnode').1
    have hsorts : query.orderBySql = query'.orderBySql :=
      Except.ok.inj (horder.symm.trans horder')
    refine ⟨?_, by rw [hsorts]⟩
    rw [hwhere, hwhere', hsame]
  · intro now filters sorts query h hknown e he
    obtain ⟨tree, parsed, htree, -, horder, hcompiles⟩ := buildTableSqlQuery_ok h
    rcases List.mem_append.mp he with he | he
    · cases tree with
      | none =>
          rw [hcompiles.1] at he
          cases he
      | some tree =>
          obtain ⟨text, hwhere, hnode⟩ := hcompiles
          have hleaves : conditionsIn filters = tree.leaves := by simp [conditionsIn, htree]
          rw [hwhere] at he
          exact compileNode_lists tree (hleaves ▸ hknown) hnode e he
    · exact compileSorts_lists horder e he

theorem parseFilters_singleFilter {c : TableFilterCondition}
    (h : TableOperator.ofName c.operator.name = c.operator) :
    parseFilters (some (some (singleFilter c))) = .ok (some (.group .and [.condition c])) :=
  congrArg (Except.map some) (normalize_singleFilter h)

def namedUser (name : String) : TableFilterCondition := ⟨"userName", .contains, name, none⟩

def namedUserQuery (name : String) : TableSqlQuery where
  whereSql := some [.raw "(", .column "user_name", .raw " ILIKE '%' || ", .param 1,
    .raw " || '%'", .raw ")"]
  params := [.text name]
  orderBySql := none

theorem text_of_requests_namedUser :
    SameTexts (namedUserQuery "王") (namedUserQuery "' OR 1 = 1 --") ∧
      ListsAll borrowRecordFilterFields (((namedUserQuery "王").whereSql.getD []) ++ []) := by
  have hbuild : buildTableSqlQuery 0 0 borrowRecordFilterFields
      (some (some (singleFilter (namedUser "王")))) none = .ok (namedUserQuery "王") := by
    decide +kernel
  have hbuild' : buildTableSqlQuery 0 0 borrowRecordFilterFields
      (some (some (singleFilter (namedUser "' OR 1 = 1 --")))) none =
        .ok (namedUserQuery "' OR 1 = 1 --") := by
    decide +kernel
  obtain ⟨hsame, hlists⟩ := text_of_requests 0 borrowRecordFilterFields
  refine ⟨hsame 0 0 _ _ _ _ _ hbuild hbuild' ⟨_, _, parseFilters_singleFilter (by decide),
    parseFilters_singleFilter (by decide), ?_⟩, ?_⟩
  · exact ⟨rfl, ⟨⟨rfl, rfl⟩, fun own hown => by cases hown⟩, trivial⟩
  · refine hlists 0 _ _ _ hbuild fun c hc => ?_
    have hall : (conditionsIn (some (some (singleFilter (namedUser "王"))))).all
        (fun c => (borrowRecordFilterFields c.field).isSome) = true := by decide +kernel
    exact List.all_eq_true.mp hall c hc

/-! ## Where the value picks the text -/

theorem valueFree_membership (table tableAlias idColumn : String) :
    (membershipField table tableAlias idColumn).ValueFree := by
  intro context context' hop
  simp only [membershipField, existsMembershipCompiler, ← hop]
  cases context.condition.operator <;>
    first
    | exact SqlCompiler.sameText_unsupported_left _
    | exact SqlCompiler.sameText_done _
    | skip
  all_goals
    dsimp only
    split
    · split
      · exact SqlCompiler.sameText_nextParam fun p => SqlCompiler.sameText_done _
      · exact SqlCompiler.sameText_unsupported_right _
    · exact SqlCompiler.sameText_unsupported_left _

theorem valueFree_month : monthField.ValueFree := by
  intro context context' hop
  simp only [monthField, monthCompiler, ← hop]
  split
  · split
    · exact SqlCompiler.sameText_failed_left _ _
    · split
      · split
        · exact SqlCompiler.sameText_failed_right _ _
        · exact SqlCompiler.sameText_nextParam fun p => SqlCompiler.sameText_nextParam fun q =>
            SqlCompiler.sameText_done _
      · exact SqlCompiler.sameText_unsupported_right _
  · exact SqlCompiler.sameText_unsupported_left _

theorem valueFree_departmentSnapshot (reference : ℚ → String) :
    (departmentSnapshotField reference).ValueFree := by
  intro context context' hop
  simp only [departmentSnapshotField, departmentSnapshotCompiler, ← hop]
  split
  · cases context.condition.operator
    all_goals
      dsimp only
      split
      · first
        | exact SqlCompiler.sameText_nextParam fun p => SqlCompiler.sameText_done _
        | exact SqlCompiler.sameText_nextParam fun p => SqlCompiler.sameText_unsupported_left _
      · exact SqlCompiler.sameText_unsupported_right _
  · exact SqlCompiler.sameText_unsupported_left _

theorem valueFree_borrowKeyword : borrowKeywordField.ValueFree := by
  intro context context' hop
  simp only [borrowKeywordField, borrowKeywordCompiler, ← hop]
  split
  · exact SqlCompiler.sameText_done _
  · exact SqlCompiler.sameText_done _
  · split
    · split
      · split
        · exact SqlCompiler.sameText_nextParam fun p => SqlCompiler.sameText_unsupported_left _
        · exact SqlCompiler.sameText_unsupported_right _
      · split
        · exact SqlCompiler.sameText_nextParam fun p => SqlCompiler.sameText_done _
        · exact SqlCompiler.sameText_unsupported_right _
    · exact SqlCompiler.sameText_unsupported_left _

/-- Open and settled borrow records, by the same operator. -/
def settlement (status : String) : TableFilterCondition :=
  ⟨"settlementStatus", .equals, status, none⟩

def settlementQuery (comparison : String) : TableSqlQuery where
  whereSql := some [.raw "(", .raw comparison, .raw ")"]
  params := []
  orderBySql := none

theorem not_sameTexts_settlement :
    ¬ ∀ (now : Int) (parameterOffset : Nat) (fields : String → Option TableSqlField)
      (filters filters' sorts : Option (Option Json)) (query query' : TableSqlQuery),
      buildTableSqlQuery now parameterOffset fields filters sorts = .ok query →
      buildTableSqlQuery now parameterOffset fields filters' sorts = .ok query' →
      RequestsResemble SameButValues filters filters' → SameTexts query query' := by
  intro h
  have hopen : buildTableSqlQuery 0 0 borrowRecordFilterFields
      (some (some (singleFilter (settlement "OPEN")))) none =
        .ok (settlementQuery "(qty - returned_qty - written_off_qty) > 0") := by
    decide +kernel
  have hsettled : buildTableSqlQuery 0 0 borrowRecordFilterFields
      (some (some (singleFilter (settlement "SETTLED")))) none =
        .ok (settlementQuery "(qty - returned_qty - written_off_qty) = 0") := by
    decide +kernel
  have hsame := (h 0 0 _ _ _ _ _ _ hopen hsettled ⟨_, _,
    parseFilters_singleFilter (by decide), parseFilters_singleFilter (by decide),
    ⟨rfl, ⟨rfl, rfl⟩, trivial⟩⟩).1
  revert hsame
  decide +kernel

end Wbme.TableQuery.SqlText

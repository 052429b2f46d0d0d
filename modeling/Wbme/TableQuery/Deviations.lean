import Wbme.TableQuery.Conditions

/-!
# Conditions that differ

A condition that is not faithful has a row on which SQL and memory differ: the row itself
where its column is `NULL`, otherwise a text made from the pattern.
-/

namespace Wbme.TableQuery

open Lib

section Deviations

variable {folding : CaseFolding} {now : Int} {parameterOffset : Nat}
  {fields : String → Option TableSqlField} {row : Row} {c : TableFilterCondition}
  {d : TableSqlField}

/-! ## Texts that tell a pattern from its value -/

variable {value : String} {context : SqlContext}

theorem lower_fold {s : List Char} (hs : ∀ c ∈ s, LikeToken.isWild c = true) {c : Char}
    (h : c = 'x' ∨ c ∈ folding.fold value ++ s) : folding.lower c = c := by
  rcases h with rfl | h
  · exact folding.lower_x
  · rcases List.mem_append.mp h with h | h
    · obtain ⟨b, -, rfl⟩ := List.mem_map.mp h
      exact folding.lower_lower b
    · exact folding.lower_of_wild c (hs c h)

theorem textHolds_of_length {operator : TableOperator} {right t : List Char}
    (hlen : t.length ≤ right.length) (hne : t ≠ right) : textHolds operator right t = false := by
  have heq : ¬ right = t := fun h => hne h.symm
  have hinfix : ¬ right <:+: t := fun h => hne (h.eq_of_length_le hlen).symm
  have hprefix : ¬ right <+: t := fun h => hinfix h.isInfix
  have hsuffix : ¬ right <:+ t := fun h => hinfix h.isInfix
  cases operator <;> simp [textHolds, heq, hinfix, hprefix, hsuffix]

theorem textHolds_self (operator : TableOperator) (right : List Char) :
    textHolds operator right right = true := by
  cases operator <;> simp [textHolds]

theorem map_lower {t : List Char} (h : ∀ c ∈ t, folding.lower c = c) : t.map folding.lower = t := by
  rw [List.map_congr_left h, List.map_id']

/-- A pattern whose value has wild letters, with or without free runs around it: its shortest
text fits without comparing, or, if an escape dangles, the value compares without fitting. -/
theorem exists_fits_ne_of_read (h : value.toList.any LikeToken.isWild = true)
    (operator : TableOperator) {s : List Char} (hs : s = [] ∨ s = ['%']) {p : List (LikeToken Char)}
    (hp : p = LikeToken.read (folding.fold value ++ s) ∨
      p = .any :: LikeToken.read (folding.fold value ++ s)) :
    ∃ t : List Char, t.map folding.lower = t ∧
      LikeToken.fits p t ≠ some (textHolds operator (folding.fold value) t) := by
  have hswild : ∀ c ∈ s, LikeToken.isWild c = true := by
    intro c hc
    rcases hs with rfl | rfl
    · cases hc
    · rw [List.mem_singleton.mp hc]
      decide
  have hwild : ¬ ∀ c ∈ folding.fold value, LikeToken.isWild c = false := by
    intro hall
    obtain ⟨b, hb, hbwild⟩ := List.any_eq_true.mp h
    have := hall _ (List.mem_map.mpr ⟨b, hb, rfl⟩)
    rw [folding.lower_of_wild b hbwild, hbwild] at this
    cases this
  by_cases hdangling : .dangling ∈ LikeToken.read (folding.fold value ++ s)
  · refine ⟨folding.fold value, map_lower fun c hc => ?_, ?_⟩
    · exact lower_fold hswild (Or.inr (List.mem_append_left s hc))
    · have hmem : .dangling ∈ p := by
        rcases hp with rfl | rfl
        · exact hdangling
        · exact List.mem_cons_of_mem _ hdangling
      rw [textHolds_self]
      exact LikeToken.fits_dangling hmem _
  · refine ⟨LikeToken.shortest 'x' (LikeToken.read (folding.fold value ++ s)),
      map_lower fun c hc => ?_, ?_⟩
    · exact lower_fold hswild (LikeToken.mem_shortest_read hc)
    · obtain ⟨hlen, heq⟩ := LikeToken.shortest_read_append hs (folding.fold value)
      rw [textHolds_of_length hlen (fun hsame => hwild (heq hsame))]
      have hfits : LikeToken.fits p
          (LikeToken.shortest 'x' (LikeToken.read (folding.fold value ++ s))) = some true := by
        rcases hp with rfl | rfl
        · exact LikeToken.fits_shortest 'x' hdangling
        · exact LikeToken.search_of_fits (LikeToken.fits_shortest 'x' hdangling)
      rw [hfits]
      simp

theorem exists_fits_ne (h : value.toList.any LikeToken.isWild = true) (operator : TableOperator) :
    ∃ t : List Char, t.map folding.lower = t ∧
      LikeToken.fits (LikeToken.read (folding.fold (textPattern operator value))) t ≠
        some (textHolds operator (folding.fold value) t) := by
  have hequals := @exists_fits_ne_of_read folding _ h operator _ (Or.inl rfl) _ (Or.inl rfl)
  have hcontains := @exists_fits_ne_of_read folding _ h operator _ (Or.inr rfl) _
    (Or.inr rfl)
  have hstarts := @exists_fits_ne_of_read folding _ h operator _ (Or.inr rfl) _ (Or.inl rfl)
  have hends := @exists_fits_ne_of_read folding _ h operator _ (Or.inl rfl) _ (Or.inr rfl)
  rw [List.append_nil] at hequals hends
  have hpercent : folding.fold ("%" ++ value ++ "%") = '%' :: (folding.fold value ++ ['%']) := by
    rw [fold_append, fold_append, fold_percent, List.append_assoc]
    rfl
  have hpercent' : folding.fold ("%" ++ value) = '%' :: folding.fold value := by
    rw [fold_append, fold_percent]
    rfl
  cases operator with
  | contains => rw [textPattern, hpercent]; exact hcontains
  | notContains => rw [textPattern, hpercent]; exact hcontains
  | startsWith => rw [textPattern, fold_append, fold_percent]; exact hstarts
  | endsWith => rw [textPattern, hpercent']; exact hends
  | _ => exact hequals

/-! ## Single conditions -/

def sqlLeaf (folding : CaseFolding) (now : Int) (parameterOffset : Nat)
    (fields : String → Option TableSqlField) (row : Row) (c : TableFilterCondition) : Outcome :=
  match compileSqlCondition now parameterOffset fields c [] with
  | .error _ => .refused
  | .ok (p, params) => outcomeOf (p.eval ⟨folding, parameterOffset, params⟩ row)

/-- Rows that are `NULL` in the same columns. -/
def Alike (fields : String → Option TableSqlField) (row row' : Row) : Prop :=
  WellTyped fields row' ∧ ∀ column, (row' column).isNone = (row column).isNone

theorem Alike.refl (h : WellTyped fields row) : Alike fields row row := ⟨h, fun _ => rfl⟩

theorem compare_ne_kept {context : SqlContext} {column : String} (h : row column = none)
    (operator : SqlComparison) (b : SqlOperand) :
    outcomeOf ((SqlPredicate.compare operator (.column column) b).eval context row) ≠ .kept := by
  simp only [SqlPredicate.eval, SqlOperand.eval, h, bind, Except.bind]
  cases b.eval context row with
  | error e => simp
  | ok v => simp [evalCompare]

theorem ilike_ne_kept {column : String} (h : row column = none) (pattern : SqlOperand)
    (negated : Bool) :
    outcomeOf ((if negated then SqlPredicate.notIlike (.column column) pattern
      else SqlPredicate.ilike (.column column) pattern).eval context row) ≠ .kept := by
  cases negated <;> simp only [Bool.false_eq_true, if_true, if_false, SqlPredicate.eval,
      SqlOperand.eval, h, bind, Except.bind] <;>
    cases pattern.eval context row <;> simp [evalIlike, pure, Except.pure]

theorem and_ne_kept {p q : SqlPredicate} (h : outcomeOf (p.eval context row) ≠ .kept) :
    outcomeOf ((SqlPredicate.and p q).eval context row) ≠ .kept := by
  have heq : outcomeOf ((SqlPredicate.and p q).eval context row) = _ := outcomeOf_and _ _
  rw [heq]
  cases hp : outcomeOf (p.eval context row) <;> cases outcomeOf (q.eval context row) <;>
    simp_all [Outcome.join]

structure Comparing (fields : String → Option TableSqlField) (c : TableFilterCondition)
    (d : TableSqlField) (value : Value) : Prop where
  field : fields c.field = some d
  notValueless : valuelessOperators.contains c.operator = false
  notRelative : relativeDateOperators.contains c.operator = false
  scalar : scalarValue c.value d.type = .ok value

theorem Comparing.sqlLeaf {value : Value} (h : Comparing fields c d value) :
    sqlLeaf folding now parameterOffset fields row c =
      match (match d.type with
        | .text => compileText c (.column d.column) (.param (parameterOffset + 1))
        | .enum => compileEnum c (.column d.column) (.param (parameterOffset + 1))
        | .date =>
            compileDate parameterOffset c (.column d.column) (.param (parameterOffset + 1)) value
        | type => compileNumber parameterOffset type c (.column d.column)
            (.param (parameterOffset + 1)) value) [value] with
      | .error _ => .refused
      | .ok (p, params) => outcomeOf (p.eval ⟨folding, parameterOffset, params⟩ row) := by
  unfold TableQuery.sqlLeaf compileSqlCondition
  simp only [h.field, h.notValueless, h.notRelative, Bool.false_eq_true, if_false, bind,
    StateT.bind, readScalar, h.scalar, Except.map, Except.bind, nextParam]
  rfl

theorem Comparing.memoryLeaf {value : Value} (h : Comparing fields c d value) :
    memoryLeaf folding now (inMemory fields) row c =
      outcomeOfMatch (match d.type with
        | .text => matchesText folding c (row d.column) (some value)
        | .enum => matchesEnum c (row d.column) (some value)
        | .date => matchesDate c (row d.column) value
        | type => matchesNumber type c (row d.column) value) := by
  unfold TableQuery.memoryLeaf matchesMemoryCondition inMemory
  simp only [h.field, Option.map_some, h.notValueless, h.notRelative, Bool.false_eq_true, if_false,
    bind, Except.bind, h.scalar]
  all_goals rfl

theorem exists_leaf_ne_text {value : String} (hc : Comparing fields c d (.text value))
    (htype : d.type = .text) (hrow : WellTyped fields row)
    (h : isFaithfulValue .text (row d.column).isNone c (.text value) = false) :
    ∃ row', Alike fields row row' ∧
      sqlLeaf folding now parameterOffset fields row' c ≠
        memoryLeaf folding now (inMemory fields) row' c := by
  obtain ⟨negated, hop⟩ : ∃ negated, textOperator c.operator = some negated := by
    cases hop : textOperator c.operator with
    | none => simp [isFaithfulValue, hop] at h
    | some negated => exact ⟨negated, rfl⟩
  obtain ⟨pattern, hcompile, hpattern⟩ := compileText_eq hop (.column d.column)
    (.param (parameterOffset + 1))
  cases hv : row d.column with
  | none =>
      refine ⟨row, Alike.refl hrow, ?_⟩
      have hempty : (negated ^^ (value == "")) = true := by
        simpa [isFaithfulValue, hv, hop] using h
      rw [hc.sqlLeaf, hc.memoryLeaf, htype]
      simp only [hcompile, matchesText_eq hop, hv, outcomeOfMatch_ok]
      show _ ≠ Outcome.ofBool (negated ^^ textHolds _ _ [])
      rw [textHolds_nil, hempty]
      exact ilike_ne_kept hv pattern negated
  | some v =>
      have hwild : value.toList.any LikeToken.isWild = true := by
        simpa [isFaithfulValue, hv, hop] using h
      obtain ⟨t, hfold, hne⟩ := @exists_fits_ne folding _ hwild c.operator
      have hfold' : folding.fold (String.ofList t) = t := by
        simpa [CaseFolding.fold] using hfold
      have hold := hrow c.field d hc.field v hv
      rw [htype] at hold
      obtain ⟨s, rfl⟩ : ∃ s, v = .text s := by cases v <;> simp [Value.hasType] at hold ⊢
      let row' : Row := fun column =>
        if column = d.column then some (.text (String.ofList t)) else row column
      have hrow' : row' d.column = some (.text (String.ofList t)) := if_pos rfl
      refine ⟨row', ⟨?_, ?_⟩, ?_⟩
      · intro name d' hfield v hv'
        by_cases hcolumn : d'.column = d.column
        · have hsame := hrow name d' hfield _ (hcolumn ▸ hv)
          rw [hcolumn, hrow'] at hv'
          cases hv'
          cases htype' : d'.type <;> rw [htype'] at hsame <;> simp_all [Value.hasType]
        · exact hrow name d' hfield v (by simpa [row', hcolumn] using hv')
      · intro column
        by_cases hcolumn : column = d.column
        · simp [row', hcolumn, hv]
        · simp [row', hcolumn]
      · rw [hc.sqlLeaf, hc.memoryLeaf, htype]
        simp only [hcompile, matchesText_eq hop, hrow', outcomeOfMatch_ok]
        have hp := hpattern ⟨folding, parameterOffset, [.text value]⟩ row' value
          (eval_param [] [] (.text value))
        show outcomeOf ((if negated then SqlPredicate.notIlike (.column d.column) pattern
          else SqlPredicate.ilike (.column d.column) pattern).eval
            ⟨folding, parameterOffset, [.text value]⟩ row') ≠
          Outcome.ofBool (negated ^^ textHolds c.operator (folding.fold value)
            (folding.fold (String.ofList t)))
        rw [outcomeOf_ilike (eval_column hrow') hp, hfold']
        cases hf : LikeToken.fits (LikeToken.read (folding.fold (textPattern c.operator value)))
            t with
        | none =>
            cases negated <;> cases textHolds c.operator (folding.fold value) t <;>
              simp [Outcome.ofBool]
        | some b =>
            rw [hf] at hne
            cases negated <;> cases b <;> cases hh : textHolds c.operator (folding.fold value) t <;>
              simp_all [Outcome.ofBool]

theorem compileDate_refused {start : Int} (h : dateSupports c start = false)
    (column parameter : SqlOperand) (ps : List Value) :
    ∃ e, compileDate parameterOffset c column parameter (.date start) ps = .error e := by
  unfold compileDate
  cases hop : c.operator
  case between =>
    cases hend : valueEndOf c with
    | none => exact ⟨_, rfl⟩
    | some valueEnd =>
        simp only [readScalar, bind, StateT.bind, Except.bind]
        cases hlast : scalarValue valueEnd .date with
        | error e => exact ⟨e, rfl⟩
        | ok v =>
            obtain ⟨last, rfl⟩ := scalarValue_date hlast
            have hlt : last < start := by
              simpa [dateSupports, hop, hend, hlast] using h
            simp only [Except.map, hlt, if_true]
            exact ⟨_, rfl⟩
  all_goals
    first
      | exact ⟨_, rfl⟩
      | exact absurd h (by simp [dateSupports, hop])

theorem compileNumber_ne_kept {type : FieldType} {column : String} (hnull : row column = none)
    (parameter : SqlOperand) (value : Value) (ps : List Value) (context : List Value → SqlContext) :
    (match compileNumber parameterOffset type c (.column column) parameter value ps with
      | .error _ => Outcome.refused
      | .ok (p, params) => outcomeOf (p.eval (context params) row)) ≠ .kept := by
  unfold compileNumber
  cases operationSql c.operator with
  | some operator => exact compare_ne_kept hnull operator parameter
  | none =>
      by_cases hbetween : c.operator = .between
      · simp only [hbetween, if_true]
        cases valueEndOf c with
        | none => simp [refuse]
        | some valueEnd =>
            simp only [readScalar, bind, StateT.bind, Except.bind]
            cases scalarValue valueEnd type with
            | error e => simp [Except.map]
            | ok last =>
                cases value <;> cases last <;> try (simp [Except.map, refuse]; done)
                next q last =>
                  by_cases hlt : last < q
                  · simp [Except.map, refuse, hlt]
                  · simp only [Except.map, hlt, if_false]
                    exact and_ne_kept (compare_ne_kept hnull .ge parameter)
      · simp [hbetween, unsupported, refuse]

theorem matchesNumber_null {type : FieldType} {q : ℚ} (h : zeroMatches type c q = true) :
    matchesNumber type c none (.number q) = .ok true := by
  unfold matchesNumber
  simp only [numberOf]
  unfold zeroMatches at h
  cases hop : operationSql c.operator with
  | some operator =>
      rw [hop] at h
      simpa [pure, Except.pure] using h
  | none =>
      simp only [hop] at h ⊢
      cases hend : valueEndOf c with
      | none => simp [hend] at h
      | some valueEnd =>
          cases hlast : scalarValue valueEnd type with
          | error e => simp [hend, hlast] at h
          | ok last =>
              cases last <;> simp only [hend, hlast, Option.map_some] at h <;> try cases h
              next last =>
                obtain ⟨hbetween, hlow, hhigh⟩ : c.operator = .between ∧ q ≤ 0 ∧ 0 ≤ last := by
                  simpa using h
                have hlt : ¬ last < q := not_lt.mpr (hlow.trans hhigh)
                simp [hbetween, bind, Except.bind, hlast, hlt, hlow, hhigh, pure, Except.pure]

theorem leaf_ne_of_null {value : Value} (hc : Comparing fields c d value) (hnull : row d.column = none) (htype : d.type ≠ .text)
    (h : isFaithfulValue d.type true c value = false) :
    sqlLeaf folding now parameterOffset fields row c ≠
      memoryLeaf folding now (inMemory fields) row c := by
  have hty := scalarValue_hasType hc.scalar
  rw [hc.sqlLeaf, hc.memoryLeaf]
  cases ht : d.type with
  | text => exact absurd ht htype
  | enum =>
      rw [ht] at hty h
      obtain ⟨s, rfl⟩ : ∃ s, value = .text s := by
        cases value <;> simp [Value.hasType] at hty ⊢
      cases hop : c.operator
      case equals =>
        have hs : s = "" := by simpa [isFaithfulValue, hop] using h
        simp only [compileEnum, matchesEnum, hop]
        refine ne_of_ne_of_eq (compare_ne_kept hnull .eq _) ?_
        simp [pure, Except.pure, stringOf, hnull, hs, Outcome.ofBool]
      case notEquals =>
        have hs : s ≠ "" := by simpa [isFaithfulValue, hop] using h
        simp only [compileEnum, matchesEnum, hop]
        refine ne_of_ne_of_eq (compare_ne_kept hnull .ne _) ?_
        simp [pure, Except.pure, stringOf, hnull, hs, Outcome.ofBool]
      all_goals simp [isFaithfulValue, hop] at h
  | date =>
      rw [ht] at hty h
      obtain ⟨start, rfl⟩ : ∃ start, value = .date start := by
        cases value <;> simp [Value.hasType] at hty ⊢
      have hsupports : dateSupports c start = false := by simpa [isFaithfulValue] using h
      obtain ⟨e, he⟩ := @compileDate_refused parameterOffset _ _ hsupports
        (.column d.column) (.param (parameterOffset + 1)) [.date start]
      simp only [he, hnull]
      simp [matchesDate, memoryDate, pure, Except.pure, Outcome.ofBool]
  | number =>
      rw [ht] at hty h
      obtain ⟨q, rfl⟩ : ∃ q, value = .number q := by
        cases value <;> simp [Value.hasType] at hty ⊢
      have hzero : zeroMatches .number c q = true := by simpa [isFaithfulValue] using h
      simp only [hnull, matchesNumber_null hzero, outcomeOfMatch_ok]
      exact compileNumber_ne_kept hnull _ _ _ _
  | time =>
      rw [ht] at hty h
      obtain ⟨q, rfl⟩ : ∃ q, value = .number q := by
        cases value <;> simp [Value.hasType] at hty ⊢
      have hzero : zeroMatches .time c q = true := by simpa [isFaithfulValue] using h
      simp only [hnull, matchesNumber_null hzero, outcomeOfMatch_ok]
      exact compileNumber_ne_kept hnull _ _ _ _

theorem exists_leaf_ne (hrow : WellTyped fields row) (h : isFaithful fields row c = false) :
    ∃ row', Alike fields row row' ∧
      sqlLeaf folding now parameterOffset fields row' c ≠
        memoryLeaf folding now (inMemory fields) row' c := by
  unfold isFaithful at h
  cases hfield : fields c.field with
  | none => simp [hfield] at h
  | some d =>
      cases hvalueless : valuelessOperators.contains c.operator with
      | true => simp [hfield] at h; simp_all
      | false =>
      cases hrelative : relativeDateOperators.contains c.operator with
      | true => simp [hfield] at h; simp_all
      | false =>
      cases hscalar : scalarValue c.value d.type with
      | error e => simp [hfield, hscalar] at h
      | ok value =>
          simp only [hfield, hvalueless, hrelative, hscalar, Bool.or_false, Bool.false_eq_true,
            if_false] at h
          have hc : Comparing fields c d value := ⟨hfield, hvalueless, hrelative, hscalar⟩
          by_cases htype : d.type = .text
          · have hty := scalarValue_hasType hscalar
            rw [htype] at hty h
            obtain ⟨s, rfl⟩ : ∃ s, value = .text s := by
              cases value <;> simp [Value.hasType] at hty ⊢
            exact exists_leaf_ne_text hc htype hrow h
          · cases hv : row d.column with
            | none =>
                rw [hv] at h
                exact ⟨row, Alike.refl hrow, leaf_ne_of_null hc hv htype h⟩
            | some v =>
                rw [hv] at h
                cases value with
                | text s =>
                    simp only [isFaithfulValue, htype, if_false] at h
                    cases hop : c.operator <;> simp [hop] at h
                | number q => simp [isFaithfulValue] at h
                | date start => simp [isFaithfulValue] at h

end Deviations

end Wbme.TableQuery

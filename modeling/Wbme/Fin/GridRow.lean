import Wbme.Fin.BusinessKeys
import Wbme.Fin.FieldTexts
import Wbme.Lib.Along

/-! # The grid row of a project

Cells of one row are saved in parallel. The page takes an answer over as a whole, the cell with
the computed columns, and leaves it out as a whole where the row has come to a higher revision.
-/

namespace Wbme.Fin

open Lib ProfitService

/-! ## Saves on the server -/

structure CellEdit where
  env : FinEnvironment
  operator : OperationLogOperator
  field : ProjectField
  value : Json

/-- What the page reads of an answer, with the field it asked for. -/
structure CellResponse where
  field : ProjectField
  value : Json
  auto : ProjectCalcResult
  dataRevision : Nat

def CellEdit.commit (id : Nat) (edit : CellEdit) (n : Nat) (s : FinStore) :
    Option (CellResponse × Nat × FinStore) :=
  match (cellSaveRun edit.env edit.operator id edit.field edit.value).run n s with
  | .ok (⟨.cellSaved _ value auto dataRevision, _, _⟩, n', s') =>
      some (⟨edit.field, value, auto, dataRevision⟩, n', s')
  | _ => none

/-- The answers to saves in the order of their commits, and the store behind them. A save that is
refused is rolled back. -/
def commitEdits (id : Nat) : List CellEdit → Nat → FinStore → List CellResponse × FinStore
  | [], _, s => ([], s)
  | edit :: edits, n, s =>
      match edit.commit id n s with
      | none => commitEdits id edits n s
      | some (response, n', s') =>
          let (responses, stored) := commitEdits id edits n' s'
          (response :: responses, stored)

/-- How the column of a field shows a value that was written to it: a day that its month does not
have has become a day of the next one. -/
def storedValue (field : ProjectField) (value : Json) : Json :=
  match cellFieldType field, value with
  | .date, .str text =>
      match storeDate field.code text with
      | .ok date => .str (formatCalendarDate date)
      | .error _ => value
  | _, _ => value

/-! ## The row on the page -/

structure GridRow where
  cells : ProjectField → Json
  auto : ProjectCalcResult
  dataRevision : Nat

/-- What `saveCellInner` makes of the row when its answer has come. -/
def GridRow.applyResponse (item : GridRow) (result : CellResponse) : GridRow :=
  if result.dataRevision < item.dataRevision then item
  else
    { cells := Function.update item.cells result.field result.value
      auto := result.auto
      dataRevision := result.dataRevision }

/-! ## What a save writes -/

structure CellValue.Fills (field : ProjectField) (cell : CellValue) : Prop where
  own : ∀ env p, fieldValue (cell.writeOver env p) field = storedValue field cell.displayValue
  others : ∀ env p g, g ≠ field → fieldValue (cell.writeOver env p) g = fieldValue p g

variable {field : ProjectField} {p : Project}

theorem fills_text (htype : cellFieldType field = .string) (hname : field ≠ .name)
    (text : Option String) : CellValue.Fills field ⟨field.writeText text, jsonText text⟩ where
  own env p := by cases field <;> first | rfl | contradiction
  others env p g hg := by cases field <;> cases g <;> first | rfl | contradiction

theorem fills_date (htype : cellFieldType field = .date) {value : Json} {date : Option Int}
    (hdate : parseCellDate field value = .ok date) :
    CellValue.Fills field ⟨field.writeDate date, value⟩ where
  own env p := by
    have hfield : fieldValue (CellValue.writeOver ⟨field.writeDate date, value⟩ env p) field =
        jsonText (date.map formatCalendarDate) := by
      cases field <;> first | rfl | contradiction
    rw [hfield]
    cases value with
    | null =>
        cases hdate
        simp [storedValue, htype, jsonText]
    | str text =>
        simp only [parseCellDate] at hdate
        split at hdate
        · cases hdate
        · cases hstore : storeDate field.code text with
          | error e => simp [hstore, Except.map] at hdate
          | ok day =>
              rw [hstore] at hdate
              cases hdate
              simp [storedValue, htype, hstore, jsonText]
    | bool b => cases hdate
    | num n => cases hdate
    | arr xs => cases hdate
    | obj fields => cases hdate
  others env p g hg := by cases field <;> cases g <;> first | rfl | contradiction

theorem fills_amount (htype : cellFieldType field = .money) (amount : Option Decimal) :
    CellValue.Fills field ⟨field.writeAmount amount, jsonText (amount.map Decimal.toFixed)⟩ where
  own env p := by cases field <;> first | rfl | contradiction
  others env p g hg := by cases field <;> cases g <;> first | rfl | contradiction

theorem fills_choice (htype : cellFieldType field = .dictId)
    (item : Option (Nat × FinanceDictItem)) :
    CellValue.Fills field ⟨field.writeChoice item, jsonId (item.map (·.1))⟩ where
  own env p := by cases field <;> first | rfl | contradiction
  others env p g hg := by cases field <;> cases g <;> first | rfl | contradiction

theorem resolveCellChoice_id {items : Table FinanceDictItem} {id : Int}
    {item : Nat × FinanceDictItem} (h : resolveCellChoice items p field id = .ok item) :
    (item.1 : Int) = id := by
  unfold resolveCellChoice findItem at h
  split at h
  · cases h
  · rename_i k found hfound
    split at hfound
    · obtain ⟨row, -, hrow⟩ := Option.map_eq_some_iff.mp hfound
      cases hrow
      split at h
      · cases h
      · cases h
        exact Int.toNat_of_nonneg ‹_›
    · cases hfound

theorem parseCellText_name (value : Json) : parseCellText .name value ≠ .ok none := by
  cases value with
  | str text =>
      simp only [parseCellText]
      split_ifs <;> simp
  | null => simp [parseCellText]
  | bool b => simp [parseCellText]
  | num n => simp [parseCellText]
  | arr xs => simp [parseCellText]
  | obj fields => simp [parseCellText]

theorem yields_fills (env : FinEnvironment) (projectId : Nat) (project : Project)
    (field : ProjectField) (value : Json) :
    (resolveCellValue env projectId project field value).Yields (CellValue.Fills field) := by
  unfold resolveCellValue
  cases htype : cellFieldType field with
  | string =>
      refine (Txn.yields_liftExcept (Q := fun text => parseCellText field value = .ok text)
        fun _ h => h).bind fun text htext => ?_
      split
      · rename_i hname
        refine (Txn.yields_trivial _).bind fun _ _ => Txn.yields_pure ?_
        subst hname
        cases text with
        | none => exact absurd htext (parseCellText_name value)
        | some text =>
            exact ⟨fun _ _ => rfl, fun _ _ g hg => by cases g <;> first | rfl | contradiction⟩
      · exact Txn.yields_pure (fills_text htype ‹_› text)
  | year =>
      refine (Txn.yields_trivial _).bind fun year _ => (Txn.yields_trivial _).bind fun _ _ =>
        Txn.yields_pure ?_
      have hyear : field = .year := by cases field <;> first | rfl | cases htype
      subst hyear
      exact ⟨fun _ _ => rfl, fun _ _ g hg => by cases g <;> first | rfl | contradiction⟩
  | date =>
      exact (Txn.yields_liftExcept (Q := fun date => parseCellDate field value = .ok date)
        fun _ h => h).bind fun date hdate => Txn.yields_pure (fills_date htype hdate)
  | money =>
      exact (Txn.yields_trivial _).bind fun amount _ => Txn.yields_pure (fills_amount htype amount)
  | stringArray =>
      refine (Txn.yields_trivial _).bind fun texts _ => Txn.yields_pure ?_
      have hfield : field = .subcontractors := by cases field <;> first | rfl | cases htype
      subst hfield
      exact ⟨fun _ _ => rfl, fun _ _ g hg => by cases g <;> first | rfl | contradiction⟩
  | dictRefArray =>
      refine (Txn.yields_trivial _).bind fun ids _ => (Txn.yields_trivial _).bind fun items _ =>
        (Txn.yields_trivial _).bind fun refs _ => Txn.yields_pure ?_
      have hfield : field = .completenessDocs := by cases field <;> first | rfl | cases htype
      subst hfield
      exact ⟨fun _ _ => rfl, fun _ _ g hg => by cases g <;> first | rfl | contradiction⟩
  | dictId =>
      refine (Txn.yields_trivial _).bind fun choice _ => ?_
      cases choice with
      | none => exact Txn.yields_pure (fills_choice htype none)
      | some id =>
          refine (Txn.yields_trivial _).bind fun items _ =>
            (Txn.yields_liftExcept fun _ h => resolveCellChoice_id h).bind fun item hitem =>
              Txn.yields_pure ?_
          rw [← hitem]
          exact fills_choice htype (some item)

/-! ## Commits -/

/-- The computed columns of a row over its amounts in a store. -/
def autoFields (s : FinStore) (id : Nat) (p : Project) : ProjectCalcResult :=
  calcProjectAutoFields p.tentativeAuditedAmount p.miscExpense
    ((s.detailsOf .invoice id).map (·.2.amount)) ((s.detailsOf .receipt id).map (·.2.amount))
    ((s.detailsOf .subcontractPayment id).map (·.2.amount))

theorem safe_recalcAuto (id : Nat) (p : Project) (n : Nat) (s : FinStore) :
    (recalcAuto id p).safe (fun auto _ s' => auto = autoFields s id p ∧ s' = s) n s := ⟨rfl, rfl⟩

/-- A row after a save, and what was answered: nothing was there to change, or the row has its
next revision, and no other field has another value. -/
structure Answered (id : Nat) (response : CellResponse) (s s' : FinStore) (p p' : Project) :
    Prop where
  row : s'.projects.find? id = some p'
  own : fieldValue p' response.field = storedValue response.field response.value
  others : ∀ g, g ≠ response.field → fieldValue p' g = fieldValue p g
  auto : response.auto = autoFields s' id p'
  revision : response.dataRevision = p'.dataRevision
  change : (s' = s ∧ p' = p) ∨ p.dataRevision < p'.dataRevision

theorem storeDate_formatCalendarDate {column : String} {day stored : Int}
    (h : storeDate column (formatCalendarDate day) = .ok stored) : stored = day := by
  have hstored := storeDate_eq_ok.mp h
  cases hparts : dateParts (formatCalendarDate day) with
  | none => simp [dayOf, hparts] at hstored
  | some parts =>
      have hday := dayOf_formatCalendarDate (by simp [hparts]) (rfl : formatCalendarDate day = _)
      exact Option.some.inj (hstored.symm.trans hday)

theorem storedValue_fieldValue (field : ProjectField) (p : Project) :
    storedValue field (fieldValue p field) = fieldValue p field := by
  cases htype : cellFieldType field with
  | date =>
      have hshown : ∃ date : Option Int,
          fieldValue p field = jsonText (date.map formatCalendarDate) := by
        cases field <;> first | exact ⟨_, rfl⟩ | contradiction
      obtain ⟨date, hdate⟩ := hshown
      rw [hdate]
      cases date with
      | none => simp [storedValue, htype, jsonText]
      | some day =>
          simp only [storedValue, htype, jsonText, Option.map_some]
          cases hstore : storeDate field.code (formatCalendarDate day) with
          | error e => rfl
          | ok stored =>
              have hday := storeDate_formatCalendarDate hstore
              rw [hday]
  | string => simp [storedValue, htype]
  | year => simp [storedValue, htype]
  | money => simp [storedValue, htype]
  | stringArray => simp [storedValue, htype]
  | dictId => simp [storedValue, htype]
  | dictRefArray => simp [storedValue, htype]

variable {s : FinStore} {arrived : List CellResponse}

theorem safe_updateProject {id n : Nat} (hp : s.projects.find? id = some p) (f : Project → Project)
    (e : Failure) :
    (updateProject id f e).safe (fun updated _ s' => updated = f p ∧
      s' = { s with projects := s.projects.update id f }) n s := by
  refine (Txn.wp_act _ _).mpr ?_
  simp only [hp]
  split
  · rename_i r hr
    split at hr
    · cases hr
    · cases hr
      exact ⟨rfl, rfl⟩
  · trivial

theorem safe_writeProjectChange {operator : OperationLogOperator} {id n : Nat}
    {action : ProjectAction} {field : Option String} {before after : Option Json} :
    (writeProjectChange operator id action field before after).safe (fun _ _ s' =>
      ∃ operations, s' = { s with projectOperations := operations }) n s :=
  Txn.safe_bind (Txn.safe_create fun _ => ⟨_, rfl⟩) fun _ _ _ h => h

theorem safe_cellSaveRun {edit : CellEdit} {id n : Nat} (hp : s.projects.find? id = some p) :
    (cellSaveRun edit.env edit.operator id edit.field edit.value).safe (fun outcome _ s' =>
      ∃ value auto revision p', outcome.result =
        .cellSaved edit.field.code value auto revision ∧
          Answered id ⟨edit.field, value, auto, revision⟩ s s' p p') n s := by
  have hlive : (findLiveProject id).safe (fun found _ s' => found = p ∧ s' = s) n s := by
    refine Txn.safe_bind (R := fun found _ s' => found = some p ∧ s' = s) ⟨hp, rfl⟩ ?_
    intro found n' s' ⟨hfound, hs⟩
    refine Txn.safe_orThrow fun q hq => ⟨?_, hs⟩
    rw [hfound] at hq
    exact (Option.some.inj (Option.filter_eq_some_iff.mp hq).1).symm
  refine Txn.safe_bind hlive fun project n₁ s₁ ⟨hproject, hs₁⟩ => ?_
  subst hproject hs₁
  refine Txn.safe_bind ((yields_fills edit.env id project edit.field edit.value).safe_quiet
    (quiet_resolveCellValue edit.env id project edit.field edit.value)) ?_
  intro cell n₂ s₂ ⟨hfills, hs₂⟩
  subst hs₂
  dsimp only
  split
  · rename_i hsame
    have hvalue := Json.eq_of_beq _ _ hsame
    refine Txn.safe_bind (R := fun found _ s' => found = project ∧ s' = s₂) ?_ ?_
    · refine Txn.safe_bind (R := fun found _ s' => found = some project ∧ s' = s₂) ⟨hp, rfl⟩ ?_
      intro found n' s' ⟨hfound, hs⟩
      refine Txn.safe_orThrow fun q hq => ⟨?_, hs⟩
      exact Option.some.inj (hq.symm.trans hfound)
    · intro current n' s' ⟨hcurrent, hs⟩
      subst hcurrent hs
      refine Txn.safe_bind (safe_recalcAuto id current n' s') fun auto n'' s'' ⟨hauto, hs⟩ => ?_
      subst hs
      refine ⟨_, _, _, current, rfl, hp, ?_, fun _ _ => rfl, hauto, rfl, .inl ⟨rfl, rfl⟩⟩
      show fieldValue current edit.field = storedValue edit.field cell.displayValue
      rw [← hvalue, storedValue_fieldValue]
  · refine Txn.safe_bind (safe_updateProject hp _ _) fun updated n₂ s₂' ⟨hupdated, hs₂⟩ => ?_
    refine Txn.safe_bind safe_writeProjectChange fun _ n₃ s₃ ⟨operations, hs₃⟩ => ?_
    refine Txn.safe_bind (safe_recalcAuto id updated n₃ s₃) fun auto n₄ s₄ ⟨hauto, hs₄⟩ => ?_
    subst hupdated hs₂ hs₃ hs₄
    refine ⟨_, _, _, cell.writeOver edit.env project, rfl, Table.find?_update_of_find? hp _,
      hfills.own _ _, hfills.others _ _, hauto, rfl, .inr (Nat.lt_succ_self _)⟩

theorem CellEdit.answered {edit : CellEdit} {id n n' : Nat} {s s' : FinStore}
    {response : CellResponse} (hp : s.projects.find? id = some p)
    (h : edit.commit id n s = some (response, n', s')) :
    response.field = edit.field ∧ ∃ p', Answered id response s s' p p' := by
  unfold CellEdit.commit at h
  split at h
  · rename_i _ _ value auto revision _ _ _ _ hrun
    obtain ⟨value', auto', revision', p', hresult, hanswered⟩ :=
      Txn.wp_of_run_ok (safe_cellSaveRun hp) hrun
    cases hresult
    cases h
    exact ⟨rfl, p', hanswered⟩
  · cases h

/-- What saves of different fields answer of a row, and the row they leave. -/
structure Stored (id : Nat) (fields : List ProjectField) (s : FinStore) (p : Project)
    (responses : List CellResponse) (s' : FinStore) (p' : Project) : Prop where
  row : s'.projects.find? id = some p'
  among : (responses.map (·.field)).Sublist fields
  own : ∀ r ∈ responses, fieldValue p' r.field = storedValue r.field r.value
  others : ∀ g, g ∉ fields → fieldValue p' g = fieldValue p g
  above : p.dataRevision ≤ p'.dataRevision
  revisions : ∀ r ∈ responses, p.dataRevision ≤ r.dataRevision ∧ r.dataRevision ≤ p'.dataRevision
  auto : ∀ r ∈ responses, r.dataRevision = p'.dataRevision → r.auto = autoFields s' id p'
  highest : (responses = [] ∧ p' = p) ∨ ∃ top ∈ responses, top.dataRevision = p'.dataRevision
  same : p'.dataRevision = p.dataRevision → s' = s

section Stored

variable {id : Nat} {fields : List ProjectField} {s s₁ s' : FinStore} {p p₁ p' : Project}
  {responses : List CellResponse}

theorem Stored.refused (g : ProjectField) (h : Stored id fields s p responses s' p') :
    Stored id (g :: fields) s p responses s' p' :=
  { h with
    among := h.among.cons g
    others := fun f hf => h.others f fun hmem => hf (List.mem_cons_of_mem g hmem) }

theorem Stored.cons {r : CellResponse} (hnew : r.field ∉ fields) (hr : Answered id r s s₁ p p₁)
    (h : Stored id fields s₁ p₁ responses s' p') :
    Stored id (r.field :: fields) s p (r :: responses) s' p' := by
  have hle : p.dataRevision ≤ p₁.dataRevision := by
    rcases hr.change with ⟨-, hsame⟩ | hlt
    · rw [hsame]
    · exact hlt.le
  have habove := h.above
  -- behind a save at the last revision nothing has changed any more
  have hlast : r.dataRevision = p'.dataRevision → s' = s₁ ∧ p' = p₁ := by
    intro hrevision
    have hs := h.same (hrevision.symm.trans hr.revision)
    have hrow := h.row
    rw [hs, hr.row] at hrow
    exact ⟨hs, (Option.some.inj hrow).symm⟩
  refine ⟨h.row, h.among.cons_cons r.field, ?_, ?_, hle.trans habove, ?_, ?_, ?_, ?_⟩
  · intro q hq
    rcases List.mem_cons.mp hq with heq | hq
    · subst heq
      rw [h.others q.field hnew, hr.own]
    · exact h.own q hq
  · intro g hg
    rw [h.others g fun hmem => hg (List.mem_cons_of_mem _ hmem)]
    exact hr.others g fun heq => hg (heq ▸ List.mem_cons_self)
  · intro q hq
    rcases List.mem_cons.mp hq with heq | hq
    · subst heq
      exact ⟨hr.revision ▸ hle, hr.revision ▸ habove⟩
    · exact ⟨hle.trans (h.revisions q hq).1, (h.revisions q hq).2⟩
  · intro q hq hrevision
    rcases List.mem_cons.mp hq with heq | hq
    · subst heq
      obtain ⟨hs, hp⟩ := hlast hrevision
      rw [hs, hp, hr.auto]
    · exact h.auto q hq hrevision
  · right
    rcases h.highest with ⟨-, hsame⟩ | ⟨top, htop, hrevision⟩
    · exact ⟨r, List.mem_cons_self, hsame ▸ hr.revision⟩
    · exact ⟨top, List.mem_cons_of_mem r htop, hrevision⟩
  · intro hrevision
    rcases hr.change with ⟨hs, hp⟩ | hlt
    · rw [← hs]
      exact h.same (hrevision.trans (by rw [hp]))
    · omega

end Stored

theorem stored_commitEdits {id : Nat} {edits : List CellEdit}
    (hfields : (edits.map (·.field)).Nodup) {n : Nat} {s : FinStore} {p : Project}
    (hp : s.projects.find? id = some p) :
    ∃ p', Stored id (edits.map (·.field)) s p (commitEdits id edits n s).1
      (commitEdits id edits n s).2 p' := by
  induction edits generalizing n s p with
  | nil =>
      exact ⟨p, hp, .slnil, nofun, fun _ _ => rfl, le_rfl, nofun, nofun, .inl ⟨rfl, rfl⟩,
        fun _ => rfl⟩
  | cons edit edits ih =>
      obtain ⟨hnew, hrest⟩ := List.nodup_cons.mp hfields
      unfold commitEdits
      cases hcommit : edit.commit id n s with
      | none =>
          obtain ⟨p', h⟩ := ih hrest hp
          exact ⟨p', h.refused edit.field⟩
      | some result =>
          obtain ⟨response, n₁, s₁⟩ := result
          obtain ⟨hfield, p₁, hanswered⟩ := CellEdit.answered hp hcommit
          obtain ⟨p', h⟩ := ih (n := n₁) hrest hanswered.row
          rw [List.map_cons, ← hfield]
          exact ⟨p', h.cons (hfield ▸ hnew) hanswered⟩

/-! ## Arrivals -/

theorem GridRow.revision_applyResponse (item : GridRow) (r : CellResponse) :
    (item.applyResponse r).dataRevision = max item.dataRevision r.dataRevision := by
  unfold applyResponse
  split
  · exact (max_eq_left_of_lt ‹_›).symm
  · exact (max_eq_right (not_lt.mp ‹_›)).symm

theorem GridRow.cells_applyResponse (item : GridRow) (r : CellResponse) :
    (item.applyResponse r).cells r.field =
      if r.dataRevision < item.dataRevision then item.cells r.field else r.value := by
  unfold applyResponse
  split
  · rfl
  · exact Function.update_self ..

theorem GridRow.cells_foldl_applyResponse {g : ProjectField} {responses : List CellResponse}
    (hg : g ∉ responses.map (·.field)) (item : GridRow) :
    (responses.foldl applyResponse item).cells g = item.cells g := by
  induction responses generalizing item with
  | nil => rfl
  | cons r responses ih =>
      obtain ⟨hne, hrest⟩ := not_or.mp fun h => hg (List.mem_cons.mpr h)
      rw [List.foldl_cons, ih hrest]
      unfold applyResponse
      split
      · rfl
      · exact Function.update_of_ne hne _ _

/-- The answer fills its cell, or the row has passed it by and shows what was stored. -/
def Arrives (item : GridRow) (r : CellResponse) : Prop :=
  storedValue r.field r.value =
    if r.dataRevision < item.dataRevision then item.cells r.field else r.value

theorem cells_arrived_iff (hfields : (arrived.map (·.field)).Nodup) (item : GridRow) :
    (∀ r ∈ arrived, (arrived.foldl GridRow.applyResponse item).cells r.field =
      storedValue r.field r.value) ↔ Along GridRow.applyResponse Arrives item arrived := by
  have hcell : ∀ l r m, arrived = l ++ r :: m →
      (arrived.foldl GridRow.applyResponse item).cells r.field =
        if r.dataRevision < (l.foldl GridRow.applyResponse item).dataRevision then
          (l.foldl GridRow.applyResponse item).cells r.field else r.value := by
    intro l r m hsplit
    subst hsplit
    rw [List.map_append, List.map_cons] at hfields
    have hlater : r.field ∉ m.map (·.field) :=
      (List.nodup_cons.mp (List.nodup_append.mp hfields).2.1).1
    rw [List.foldl_append, List.foldl_cons, GridRow.cells_foldl_applyResponse hlater,
      GridRow.cells_applyResponse]
  constructor
  · intro h
    refine Along.of_splits fun l r m hsplit => ?_
    have hr : r ∈ arrived := hsplit ▸ List.mem_append_right l List.mem_cons_self
    exact (h r hr).symm.trans (hcell l r m hsplit)
  · intro h r hr
    obtain ⟨l, m, hsplit⟩ := List.append_of_mem hr
    rw [hcell l r m hsplit]
    subst hsplit
    exact h.at_split.symm

theorem summary_arrived {item : GridRow} {revision : Nat} {auto : ProjectCalcResult}
    (hitem : item.dataRevision ≤ revision) (hle : ∀ r ∈ arrived, r.dataRevision ≤ revision)
    (hauto : ∀ r ∈ arrived, r.dataRevision = revision → r.auto = auto)
    (htop : ∃ r ∈ arrived, r.dataRevision = revision) :
    (arrived.foldl GridRow.applyResponse item).auto = auto ∧
      (arrived.foldl GridRow.applyResponse item).dataRevision = revision := by
  obtain ⟨top, htop, hrevision⟩ := htop
  obtain ⟨l, m, rfl⟩ := List.append_of_mem htop
  have hbefore : (l.foldl GridRow.applyResponse item).dataRevision ≤ revision := by
    refine List.foldlRecOn l _ (motive := fun i : GridRow => i.dataRevision ≤ revision) hitem ?_
    intro i hi r hr
    rw [GridRow.revision_applyResponse]
    exact max_le hi (hle r (List.mem_append_left _ hr))
  have hat : ((l.foldl GridRow.applyResponse item).applyResponse top).auto = auto ∧
      ((l.foldl GridRow.applyResponse item).applyResponse top).dataRevision = revision := by
    refine ⟨?_, by rw [GridRow.revision_applyResponse, hrevision, max_eq_right hbefore]⟩
    rw [GridRow.applyResponse, if_neg (by omega)]
    exact hauto top htop hrevision
  rw [List.foldl_append, List.foldl_cons]
  refine List.foldlRecOn m _
    (motive := fun i : GridRow => i.auto = auto ∧ i.dataRevision = revision) hat ?_
  intro i ⟨hiauto, hirevision⟩ r hr
  have hmem : r ∈ l ++ top :: m := List.mem_append_right l (List.mem_cons_of_mem top hr)
  refine ⟨?_, by rw [GridRow.revision_applyResponse, hirevision, max_eq_left (hle r hmem)]⟩
  unfold GridRow.applyResponse
  split
  · exact hiauto
  · exact hauto r hmem (by have := hle r hmem; omega)

/-! ## The law -/

/-- The row shows of every cell that was saved what the store has of it, and what was computed at
the highest revision that was answered. -/
structure ShowsStored (id : Nat) (stored : FinStore) (responses : List CellResponse)
    (item : GridRow) : Prop where
  cells : ∀ r ∈ responses, ∃ p, stored.projects.find? id = some p ∧
    item.cells r.field = fieldValue p r.field
  summary : ∀ top ∈ responses, (∀ r ∈ responses, r.dataRevision ≤ top.dataRevision) →
    item.auto = top.auto ∧ item.dataRevision = top.dataRevision

def GridRow.loaded (s : FinStore) (id : Nat) (p : Project) : GridRow :=
  { cells := fieldValue p, auto := autoFields s id p, dataRevision := p.dataRevision }

/-- One user fills two cells of the one project. -/
def twoEdits : List CellEdit :=
  [⟨⟨⟨id, id⟩, 0⟩, ⟨1, "operator", []⟩, .partyA, .str "A"⟩,
    ⟨⟨⟨id, id⟩, 0⟩, ⟨1, "operator", []⟩, .remark, .str "R"⟩]

end Wbme.Fin

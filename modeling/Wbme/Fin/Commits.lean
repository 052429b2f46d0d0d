import Wbme.Fin.Discipline

/-! # Operations on projects, cells and the dictionary

Every operation but the import, amid any others: what it writes is under its permit, and a
revision goes up only with a record of what was found to differ.
-/

namespace Wbme.Fin

open Lib

/-! ## Beginnings -/

/-- Nothing is changed or drawn so far. -/
structure FinStart (d : FinDraft) (s : FinStore) : Prop where
  idle : d.Idle
  keys : ∀ n, Hold.key n ∉ d.holds
  keyed : Keyed s

section Start

variable {u : Unicode} {w : Permit} {a : FinActivity} {d : FinDraft} {s s' : FinStore}

theorem FinStart.read (h : FinStart d s) (hs : (finDiscipline u).Rely d.holds s s') :
    FinStart (d.execute s' [] id) s' :=
  ⟨h.idle.execute s' [], fun n hn => h.keys n (by simpa using hn), hs.1⟩

theorem FinStart.going (h : FinStart d s) (u : Unicode) (w : Permit) : FinGoing u w d.seen d s :=
  ⟨finCareful_of_idle h.idle h.keys h.keyed, List.prefix_rfl⟩

theorem amid_findLiveProject (h : FinStart d s) (id : Nat) :
    (findLiveProject id).amid (finDiscipline u).Rely (finDiscipline u).unused
      (fun p d' s' => FinStart d' s' ∧ d'.seen = d.seen ++ [s'] ∧
        s'.projects.find? id = some p) d s := by
  refine Txn.amid_query_bind fun s' hs => Txn.amid_orThrow fun p hp => ?_
  rw [h.idle s'] at hp
  exact ⟨h.read hs, rfl, (Option.filter_eq_some_iff.mp hp).1⟩

theorem allowedRun_of_statements (h : FinStart d s) {run : FinTx (IdempotentOutcome FinReply)}
    (hp : run.Statements (FinStatement u w) []) (hfor : ∀ seen, w.For a seen)
    (howners : ∀ id, ¬ w.owners id)
    (hraises : ∀ id, w.raises id → a.isImport = true ∨ a.isRestore = true) :
    AllowedRun (finDiscipline u) a run d s := by
  refine allowedRun_of_settled (Txn.amid_mono (hp.amid (tracks_finGoing u w d.seen) (h.going u w)) fun _ d' s' hgoing => ⟨w, ?_⟩)
  exact
    { careful := hgoing.careful
      permit := hfor d'.seen
      accounted := fun id hid => absurd hid (howners id)
      recorded := fun id hid => (hraises id hid).elim .inl fun hr => .inr (.inl hr) }

end Start

/-! ## Records -/

variable (env : FinEnvironment) (operator : OperationLogOperator) (id : Nat)

section Records

variable {u : Unicode} {d : FinDraft} {s : FinStore}

theorem amid_writeProjectChange {operator : OperationLogOperator} {projectId : Nat}
    {action : ProjectAction} {field : Option String} {before after : Option Json}
    (hne : before ≠ after) :
    (writeProjectChange operator projectId action field before after).amid (finDiscipline u).Rely
      (finDiscipline u).unused (fun _ d s => Recorded projectId d.holds s (d.change s)) d s := by
  refine (Txn.amid_bind _ _).mpr (Txn.amid_create fun s' n s'' _ hn _ hs'' _ => ?_)
  have hnone : s'.projectOperations.find? n = none := hn.operations n (Nat.le_refl n)
  have hrow : s''.projectOperations.find? n = s'.projectOperations.find? n :=
    freezes_operations u _ _ _ n hs'' (.inr ⟨hnone, List.mem_cons_self⟩)
  exact ⟨n, _, by simp, hrow.trans hnone, Table.find?_insert_self _ _ _, rfl, hne⟩

theorem statements_writeProjectChange {w : Permit} (projectId : Nat) (action : ProjectAction)
    (field : Option String) (before after : Option Json) :
    (writeProjectChange operator projectId action field before after).Statements
      (FinStatement u w) [] := statements_writeProjectOperation _

theorem leaves_recalcAuto {τ : Type} {g : FinStore → τ} (p : Project) :
    (recalcAuto id p).Leaves g :=
  (Txn.leaves_query _).bind fun _ => (Txn.leaves_query _).bind fun _ =>
    (Txn.leaves_query _).bind fun _ => Txn.leaves_pure _

theorem statements_recalcAuto {w : Permit} (p : Project) :
    (recalcAuto id p).Statements (fun drawn l c => FinStatement u w drawn l c ∧
      ∀ v t, (c v t).projectOperations = t.projectOperations) [] :=
  (statements_of_quiet (leaves_recalcAuto id p) []).and_leaves (leaves_recalcAuto id p)

theorem leaves_updateProject (f : Project → Project) (e : Failure) :
    (updateProject id f e).Leaves FinStore.projectOperations := by
  refine Txn.leaves_act fun v p c hc s => ?_
  split at hc
  · cases hc
  · split_ifs at hc
    cases hc
    rfl

end Records

/-! ## Permits of one project -/

/-- One project may be written, and its revision raised. -/
def Permit.edit (id : Nat) : Permit :=
  { Permit.none with writes := fun i _ => i = id, raises := fun i => i = id, restores := False }

theorem permitFor_edit {a : FinActivity} (seen : List FinStore) (hrestore : a.isRestore = false)
    (himport : a.isImport = false) : (Permit.edit id).For a seen where
  restores h := by simp [hrestore] at h
  chosen i n _ buffer dto hop := by simp [FinActivity.isImport, hop] at himport
  read _ h := nomatch h
  owned _ h := nomatch h

section Edit

variable {u : Unicode} {w : Permit} {env : FinEnvironment} {id : Nat} {p : Project}

theorem writes_edit {p' : Project} (hrevision : p'.dataRevision = p.dataRevision + 1)
    (hnamed : (p'.name = p.name ∧ p'.businessKey = p.businessKey) ∨ p'.Lawful u) :
    (Permit.edit id).Writes u id p p' where
  allowed := rfl
  revision := by omega
  content h := by omega
  raised _ := rfl
  restored h := h.elim
  keepsName h := absurd rfl h
  named := hnamed.imp_right .inl

end Edit

section Projects

open ProjectService

variable {u : Unicode} {a : FinActivity} {d : FinDraft} {s : FinStore}

theorem buildProjectData_ok {dto : ProjectCreateDto} {businessKey : String}
    {snapshots : DictSnapshots} {data : ProjectData}
    (h : buildProjectData dto businessKey snapshots = .ok data) :
    data.name = dto.name ∧ data.businessKey = businessKey := by
  simp only [buildProjectData, bind, Except.bind, pure, Except.pure] at h
  repeat' split at h
  all_goals cases h
  exact ⟨rfl, rfl⟩

theorem statements_createRun {w : Permit} (hread : w.readName = none) (env : FinEnvironment)
    (operator : OperationLogOperator) (dto : ProjectCreateDto) :
    (createRun env operator dto).Statements (FinStatement env.unicode w) [] := by
  have hadmits := finStatement_admits env.unicode w
  refine Txn.Statements.bind hadmits ?_ fun snapshots => ?_
  · exact (Txn.statements_query hadmits _).bind hadmits fun _ => Txn.statements_liftExcept _
  refine (Txn.statements_liftExcept _).bind_yields hadmits
    (Txn.yields_liftExcept fun data hdata => buildProjectData_ok hdata) fun data hdata => ?_
  refine (statements_createProject hread ?_).bind hadmits fun id => ?_
  · show data.businessKey = normalizeProjectName env.unicode data.name
    rw [hdata.1, hdata.2]
  exact (statements_writeProjectChange _ _ _ _ _ _).bind hadmits fun _ => Txn.statements_pure _

/-- Rows may be written without a revision. -/
def Permit.delete : Permit := { Permit.none with writes := fun _ _ => True, restores := False }

/-- Rows may be written that are not deleted behind it. -/
def Permit.restore : Permit :=
  { Permit.none with writes := fun _ _ => True, raises := fun _ => True }

theorem permitFor_delete (seen : List FinStore) (hrestore : a.isRestore = false)
    (himport : a.isImport = false) : Permit.delete.For a seen where
  restores h := by simp [hrestore] at h
  chosen i n _ buffer dto hop := by simp [FinActivity.isImport, hop] at himport
  read _ h := nomatch h
  owned _ h := nomatch h

theorem permitFor_restore (seen : List FinStore) (himport : a.isImport = false) :
    Permit.restore.For a seen where
  restores _ := trivial
  chosen i n _ buffer dto hop := by simp [FinActivity.isImport, hop] at himport
  read _ h := nomatch h
  owned _ h := nomatch h

theorem statements_batchDeleteRun (operator : OperationLogOperator) (ids : List Nat) :
    (batchDeleteRun env operator ids).Statements (FinStatement u Permit.delete) [] := by
  have hadmits := finStatement_admits u Permit.delete
  refine (Txn.statements_query hadmits _).bind hadmits fun rows => ?_
  refine (Txn.statements_guard _ _).bind hadmits fun _ => ?_
  refine Txn.Statements.bind hadmits (statements_updateProjects (fun id _ p => ?_) fun p => rfl)
    fun _ => ?_
  · exact ⟨trivial, Nat.le_refl _, fun _ => rfl, fun h => absurd h (Nat.lt_irrefl _),
      fun h => h.elim, fun _ => rfl, .inl ⟨rfl, rfl⟩⟩
  refine (Txn.statements_forM hadmits fun row _ => ?_).bind hadmits fun _ => Txn.statements_pure _
  exact statements_writeProjectChange _ _ _ _ _ _

theorem statements_batchRestoreRun (operator : OperationLogOperator) (ids : List Nat) :
    (batchRestoreRun env operator ids).Statements (FinStatement u Permit.restore) [] := by
  have hadmits := finStatement_admits u Permit.restore
  refine (Txn.statements_query hadmits _).bind hadmits fun rows => ?_
  refine (Txn.statements_guard _ _).bind hadmits fun _ => ?_
  refine Txn.Statements.bind hadmits (statements_updateProjects (fun id _ p => ?_) fun p => rfl)
    fun _ => ?_
  · exact ⟨trivial, Nat.le_succ _, fun h => absurd h (Nat.succ_ne_self _), fun _ => trivial,
      fun _ => rfl, fun _ => rfl, .inl ⟨rfl, rfl⟩⟩
  refine (Txn.statements_forM hadmits fun row _ => ?_).bind hadmits fun _ => Txn.statements_pure _
  exact statements_writeProjectChange _ _ _ _ _ _

end Projects

/-! ## Updating a project -/

variable {seen : List FinStore}

section Update

open ProjectService

variable {u : Unicode} {w : Permit} {a : FinActivity} {d : FinDraft} {s : FinStore}

theorem FinGoing.settled {id : Nat} (h : FinGoing u w seen d s) (hfor : w.For a seen)
    (howners : ∀ i, ¬ w.owners i) (hraises : ∀ i, w.raises i → i = id)
    (hrecorded : (∀ t i, (d.change t).projects.find? i = t.projects.find? i) ∨
      Recorded id d.holds s (d.change s)) : ∃ w, FinSettled u a w d s :=
  ⟨w,
    { careful := h.careful
      permit := hfor.mono h.seen
      accounted := fun i hi => absurd hi (howners i)
      recorded := fun i hi => by
        obtain rfl := hraises i hi
        exact .inr (.inr hrecorded) }⟩

theorem amid_settled_of_recorded {α : Type} {p : FinTx α} (hstart : FinStart d s)
    (hp : p.Statements (FinStatement u w) []) (hfor : w.For a d.seen) (howners : ∀ i, ¬ w.owners i)
    (hraises : ∀ i, w.raises i → i = id)
    (hrecorded : p.amid (finDiscipline u).Rely (finDiscipline u).unused
      (fun _ d s => (∀ t i, (d.change t).projects.find? i = t.projects.find? i) ∨
        Recorded id d.holds s (d.change s)) d s) :
    p.amid (finDiscipline u).Rely (finDiscipline u).unused
      (fun _ d s => ∃ w, FinSettled u a w d s) d s :=
  Txn.amid_mono (Txn.amid_and (hp.amid (tracks_finGoing u w d.seen) (hstart.going u w)) hrecorded) fun _ _ _ ⟨hgoing, hrec⟩ =>
      hgoing.settled hfor howners hraises hrec

theorem ne_of_fieldValuesEqual {x y : Json} (h : fieldValuesEqual x y ≠ true) : x ≠ y := by
  rintro rfl
  exact h (by simp [fieldValuesEqual, Json.beq_self])

theorem jsonText_injective {x y : Option String} (h : jsonText x = jsonText y) : x = y := by
  cases x <;> cases y <;> simp_all [jsonText]

theorem jsonSemantic_injective {x y : AmountSemantic} (h : jsonSemantic x = jsonSemantic y) :
    x = y := by
  cases x <;> cases y <;> first | rfl | simp [jsonSemantic] at h

theorem diffProject_ne {existing : Project} {dto : ProjectCreateDto} {snapshots : DictSnapshots}
    {c : FieldChange} (h : c ∈ diffProject existing dto snapshots) : c.before ≠ c.after := by
  simp only [diffProject, List.mem_append, List.mem_filterMap] at h
  rcases h with (⟨field, -, hfield⟩ | ⟨name, -, hname⟩) | hsemantic
  · split_ifs at hfield with heq
    cases hfield
    exact ne_of_fieldValuesEqual heq
  · split_ifs at hname with heq
    cases hname
    exact fun h => heq (jsonText_injective h)
  · split_ifs at hsemantic with heq
    · cases hsemantic
    · obtain rfl := List.mem_singleton.mp hsemantic
      exact fun h => heq (jsonSemantic_injective h)

theorem changes_ne {changes : List FieldChange} (hne : changes.isEmpty ≠ true)
    (h : ∀ c ∈ changes, c.before ≠ c.after) : changesBefore changes ≠ changesAfter changes := by
  cases changes with
  | nil => exact absurd rfl hne
  | cons c rest =>
      intro heq
      simp only [changesBefore, changesAfter, Json.obj.injEq, List.map_cons, List.cons.injEq,
        Prod.mk.injEq, true_and] at heq
      exact h c List.mem_cons_self heq.1

theorem allowedRun_update (operator : OperationLogOperator) (id : Nat) (dto : ProjectCreateDto)
    (hrestore : a.isRestore = false) (himport : a.isImport = false) (hstart : FinStart d s) :
    AllowedRun (finDiscipline env.unicode) a (updateRun env operator id dto) d s := by
  have hadmits := finStatement_admits env.unicode (Permit.edit id)
  refine allowedRun_of_settled (Txn.amid_seq (amid_findLiveProject hstart id) ?_)
  intro existing d s ⟨hstart, _, _⟩
  refine amid_settled_of_recorded (w := Permit.edit id) id hstart ?_
    (permitFor_edit id _ hrestore himport) (fun _ h => h) (fun _ h => h) ?_
  · refine Txn.Statements.bind hadmits ?_ fun snapshots => ?_
    · exact (Txn.statements_query hadmits _).bind hadmits fun _ => Txn.statements_liftExcept _
    dsimp only
    split
    · exact Txn.statements_pure _
    refine (Txn.statements_liftExcept _).bind_yields hadmits
      (Txn.yields_liftExcept fun data hdata => buildProjectData_ok hdata) fun data hdata => ?_
    refine (statements_updateProject fun p => writes_edit rfl (.inr ?_)).bind hadmits fun _ => ?_
    · show data.businessKey = normalizeProjectName env.unicode data.name
      rw [hdata.1, hdata.2]
    exact (statements_writeProjectChange _ _ _ _ _ _).bind hadmits fun _ => Txn.statements_pure _
  · refine (Txn.amid_bind _ _).mpr (Txn.amid_query_bind fun s₁ _ => Txn.amid_liftExcept
      fun snapshots _ => ?_)
    dsimp only
    split
    · exact .inl fun t i => by rw [hstart.idle.execute s₁ [] t]
    rename_i hdiff
    refine Txn.amid_liftExcept_bind fun data _ => (Txn.amid_bind _ _).mpr ((Txn.amid_act _ _).mpr ?_)
    intro s₂ _ updated c _
    refine (Txn.amid_bind _ _).mpr (Txn.amid_mono (amid_writeProjectChange fun heq => ?_)
      fun _ _ _ h => .inr h)
    exact changes_ne hdiff (fun c hc => diffProject_ne hc) (Option.some.inj heq)

end Update

section CellSave

open ProfitService

variable {u : Unicode} {a : FinActivity} {d : FinDraft} {s : FinStore}

/-- The permit of a cell save: a year is saved with the key of the name that was read. -/
def Permit.cell (id : Nat) (field : ProjectField) (name : String) : Permit :=
  { Permit.edit id with readName := if field = .year then some name else .none }

structure CellValue.Lawful (u : Unicode) (field : ProjectField) (name : String)
    (cell : CellValue) : Prop where
  keepsName : field = .year → ∀ p, (cell.write p).name = p.name
  named : ∀ p : ProjectData,
    ((cell.write p).name = p.name ∧ (cell.write p).businessKey = p.businessKey) ∨
    (cell.write p).Lawful u ∨ (field = .year ∧
      (cell.write p).businessKey = normalizeProjectName u name)

variable {field : ProjectField}

theorem cellValue_lawful {name : String} {cell : CellValue}
    (h : ∀ p, (cell.write p).name = p.name ∧ (cell.write p).businessKey = p.businessKey) :
    cell.Lawful u field name := ⟨fun _ p => (h p).1, fun p => .inl (h p)⟩

theorem writeText_key (field : ProjectField) (text : Option String) (p : ProjectData) :
    (field.writeText text p).name = p.name ∧
      (field.writeText text p).businessKey = p.businessKey := by cases field <;> exact ⟨rfl, rfl⟩

theorem writeDate_key (field : ProjectField) (date : Option Int) (p : ProjectData) :
    (field.writeDate date p).name = p.name ∧
      (field.writeDate date p).businessKey = p.businessKey := by cases field <;> exact ⟨rfl, rfl⟩

theorem writeAmount_key (field : ProjectField) (amount : Option Decimal) (p : ProjectData) :
    (field.writeAmount amount p).name = p.name ∧
      (field.writeAmount amount p).businessKey = p.businessKey := by
  cases field <;> exact ⟨rfl, rfl⟩

theorem writeChoice_key (field : ProjectField) (item : Option (Nat × FinanceDictItem))
    (p : ProjectData) : (field.writeChoice item p).name = p.name ∧
      (field.writeChoice item p).businessKey = p.businessKey := by cases field <;> exact ⟨rfl, rfl⟩

theorem yields_resolveCellValue (env : FinEnvironment) (projectId : Nat) (project : Project)
    (field : ProjectField) (value : Json) :
    (resolveCellValue env projectId project field value).Yields
      (CellValue.Lawful env.unicode field project.name) := by
  unfold resolveCellValue
  cases hfield : cellFieldType field with
  | string =>
      refine (Txn.yields_trivial _).bind fun text _ => ?_
      split
      · rename_i hname
        refine (Txn.yields_trivial _).bind fun _ _ => Txn.yields_pure ⟨fun hyear => ?_, fun p => ?_⟩
        · rw [hname] at hyear
          cases hyear
        · exact .inr (.inl rfl)
      · exact Txn.yields_pure (cellValue_lawful (writeText_key field text))
  | year =>
      refine (Txn.yields_trivial _).bind fun year _ => (Txn.yields_trivial _).bind fun _ _ =>
        Txn.yields_pure ⟨fun _ p => rfl, fun p => ?_⟩
      have hyear : field = .year := by cases field <;> first | rfl | cases hfield
      exact .inr (.inr ⟨hyear, rfl⟩)
  | date =>
      exact (Txn.yields_trivial _).bind fun date _ =>
        Txn.yields_pure (cellValue_lawful (writeDate_key field date))
  | money =>
      exact (Txn.yields_trivial _).bind fun amount _ =>
        Txn.yields_pure (cellValue_lawful (writeAmount_key field amount))
  | stringArray =>
      exact (Txn.yields_trivial _).bind fun texts _ =>
        Txn.yields_pure (cellValue_lawful fun _ => ⟨rfl, rfl⟩)
  | dictRefArray =>
      refine (Txn.yields_trivial _).bind fun ids _ => (Txn.yields_trivial _).bind fun items _ => ?_
      exact (Txn.yields_trivial _).bind fun refs _ =>
        Txn.yields_pure (cellValue_lawful fun _ => ⟨rfl, rfl⟩)
  | dictId =>
      refine (Txn.yields_trivial _).bind fun choice _ => ?_
      cases choice with
      | none => exact Txn.yields_pure (cellValue_lawful (writeChoice_key field none))
      | some id =>
          refine (Txn.yields_trivial _).bind fun items _ => ?_
          exact (Txn.yields_trivial _).bind fun item _ =>
            Txn.yields_pure (cellValue_lawful (writeChoice_key field (some item)))

theorem quiet_resolveCellValue (env : FinEnvironment) (projectId : Nat) (project : Project)
    (field : ProjectField) (value : Json) :
    (resolveCellValue env projectId project field value).Quiet := by
  have hfree : ∀ key, (assertBusinessKeyFree projectId key).Quiet := fun key =>
    (Txn.leaves_query _).bind fun _ => Txn.leaves_guard _ _
  unfold resolveCellValue
  cases cellFieldType field with
  | string =>
      refine (Txn.leaves_liftExcept _).bind fun text => ?_
      dsimp only
      split
      · exact (hfree _).bind fun _ => Txn.leaves_pure _
      · exact Txn.leaves_pure _
  | year =>
      exact (Txn.leaves_liftExcept _).bind fun year => (hfree _).bind fun _ => Txn.leaves_pure _
  | date => exact (Txn.leaves_liftExcept _).bind fun _ => Txn.leaves_pure _
  | money => exact (Txn.leaves_liftExcept _).bind fun _ => Txn.leaves_pure _
  | stringArray => exact (Txn.leaves_liftExcept _).bind fun _ => Txn.leaves_pure _
  | dictRefArray =>
      exact (Txn.leaves_liftExcept _).bind fun _ => (Txn.leaves_query _).bind fun _ =>
        (Txn.leaves_liftExcept _).bind fun _ => Txn.leaves_pure _
  | dictId =>
      refine (Txn.leaves_liftExcept _).bind fun choice => ?_
      cases choice with
      | none => exact Txn.leaves_pure _
      | some id =>
          exact (Txn.leaves_query _).bind fun _ => (Txn.leaves_liftExcept _).bind fun _ =>
            Txn.leaves_pure _

theorem writes_cell {env : FinEnvironment} {id : Nat} {name : String} {cell : CellValue}
    (h : cell.Lawful u field name) (p : Project) :
    (Permit.cell id field name).Writes u id p (cell.writeOver env p) where
  allowed := rfl
  revision := Nat.le_succ _
  content heq := absurd heq (Nat.succ_ne_self _)
  raised _ := rfl
  restored h := h.elim
  keepsName hread := by
    by_cases hyear : field = .year
    · exact h.keepsName hyear p.toProjectData
    · simp [Permit.cell, hyear] at hread
  named := (h.named p.toProjectData).imp_right fun hn => hn.imp_right fun ⟨hyear, hkey⟩ =>
    ⟨name, by simp [Permit.cell, hyear], hkey⟩

theorem ofCode?_code {code : String} (h : ProjectField.ofCode? code = some field) :
    field.code = code := by
  simpa using List.find?_some h

theorem permitFor_cell {dto : CellSaveDto} {v : FinStore} {project : Project}
    (hoperation : a.operation = .cellSave dto)
    (hfield : ProjectField.ofCode? dto.field = some field) (hseen : seen[a.projectReadAt]? = some v)
    (hproject : v.projects.find? dto.projectId = some project) :
    (Permit.cell dto.projectId field project.name).For a seen where
  restores h := by simp [FinActivity.isRestore, hoperation] at h
  chosen i n _ buffer dto hop := by simp [hoperation] at hop
  read n hn := by
    by_cases hyear : field = .year
    · have hname : project.name = n := by simpa [Permit.cell, hyear] using hn
      refine ⟨dto.projectId, v, project, ?_, fun i m hi => hi, hseen, hproject, hname⟩
      have hcode := ofCode?_code hfield
      rw [hyear] at hcode
      simp [FinActivity.yearTarget, hoperation, ← hcode, ProjectField.code]
    · simp [Permit.cell, hyear] at hn
  owned _ h := nomatch h

theorem allowedRun_cellSave {operator : OperationLogOperator} {dto : CellSaveDto}
    (hoperation : a.operation = .cellSave dto)
    (hfield : ProjectField.ofCode? dto.field = some field) (hstart : FinStart d s)
    (hseen : d.seen.length = a.projectReadAt) :
    AllowedRun (finDiscipline env.unicode) a
      (cellSaveRun env operator dto.projectId field dto.value) d s := by
  refine allowedRun_of_settled (Txn.amid_seq (amid_findLiveProject hstart dto.projectId) ?_)
  intro project d' s' ⟨hstart', hseen', hfind⟩
  have hv : d'.seen[a.projectReadAt]? = some s' := by simp [hseen', ← hseen]
  have hfor := permitFor_cell hoperation hfield hv hfind
  have hadmits := finStatement_admits env.unicode (Permit.cell dto.projectId field project.name)
  have htracks := tracks_finGoing env.unicode (Permit.cell dto.projectId field project.name) d'.seen
  have hquiet := quiet_resolveCellValue env dto.projectId project field dto.value
  refine Txn.amid_seq (Txn.amid_and (yields_resolveCellValue env dto.projectId project field
    dto.value).amid (Txn.amid_and hquiet.amid ((statements_of_quiet hquiet _).amid htracks
      (hstart'.going env.unicode _)))) ?_
  intro cell d₁ s₁ ⟨hcell, hsame, hgoing⟩
  dsimp only
  split
  · have htail : ((findProject dto.projectId) >>= fun current =>
        recalcAuto dto.projectId current >>= fun auto =>
          (pure ⟨.cellSaved field.code cell.displayValue auto current.dataRevision, .update,
            s!"在利润分析中保存了项目 {project.name} 的{field.code}"⟩ :
            FinTx (IdempotentOutcome FinReply))).Quiet :=
      ((Txn.leaves_query _).bind fun _ => Txn.leaves_orThrow _ _).bind fun current =>
        (leaves_recalcAuto _ _).bind fun _ => Txn.leaves_pure _
    refine Txn.amid_mono (Txn.amid_and htail.amid ((statements_of_quiet htail _).amid htracks
      hgoing)) fun _ d₂ s₂ ⟨hsame', hgoing'⟩ =>
        hgoing'.settled hfor (fun _ h => h) (fun _ h => h) (.inl fun t i => ?_)
    rw [hsame' t, hsame t, hstart'.idle t]
  · rename_i hdiff
    refine Txn.amid_seq ((statements_updateProject fun p => writes_cell hcell p).amid htracks
      hgoing) fun updated d₂ s₂ hgoing => ?_
    refine Txn.amid_seq (Txn.amid_and ((statements_writeProjectChange _ _ _ _ _ _).amid htracks
      hgoing) (amid_writeProjectChange fun heq => hdiff (Option.some.inj heq ▸ Json.beq_self _)))
        fun _ d₃ s₃ hrecorded => ?_
    refine Txn.amid_seq ((statements_recalcAuto _ _).amid (tracks_recorded _ _ _ _) hrecorded)
      fun auto d₄ s₄ ⟨hgoing, hrecorded⟩ => ?_
    exact hgoing.settled hfor (fun _ h => h) (fun _ h => h) (.inr hrecorded)

end CellSave

section Details

open DetailService

variable {u : Unicode} {w : Permit} {a : FinActivity} {d : FinDraft} {s : FinStore}

def Permit.change (id : Nat) (detail : Option (DetailKind × Nat)) : Permit :=
  { Permit.edit id with owners := fun i => i = id, detail }

theorem permitFor_change {id : Nat} {detail : Option (DetailKind × Nat)}
    (hrestore : a.isRestore = false) (himport : a.isImport = false)
    (howned : ∀ k, detail = some k → ∃ v ∈ seen, ∃ x, detailsRows.row k v = some x ∧
      x.projectId = id) : (Permit.change id detail).For a seen where
  restores h := by simp [hrestore] at h
  chosen i n _ buffer dto hop := by simp [FinActivity.isImport, hop] at himport
  read _ h := nomatch h
  owned := howned

theorem writes_revised (id : Nat) (detail : Option (DetailKind × Nat)) (p : Project) :
    (Permit.change id detail).Writes u id p (p.revised env) where
  allowed := rfl
  revision := Nat.le_succ _
  content heq := absurd heq (Nat.succ_ne_self _)
  raised _ := rfl
  restored h := h.elim
  keepsName _ := rfl
  named := .inl ⟨rfl, rfl⟩

theorem FinGoing.raised_update {id : Nat} (h : FinGoing u w seen d s) {p : Project}
    {f : Project → Project} (hp : (d.change s).projects.find? id = some p)
    (hf : p.dataRevision < (f p).dataRevision) {locks : List FinLock} (hlock : .project id ∈ locks)
    {c : FinStore → FinStore} (hc : ∀ t, c t = { t with projects := t.projects.update id f }) :
    RaisedBy (d.execute s locks c) s id := by
  have hnew : (c (d.change s)).projects.find? id = some (f p) := by
    rw [hc]
    exact Table.find?_update_of_find? hp f
  have hlocked : Hold.lock (.project id) ∈ d.holds ++ locks.map .lock :=
    List.mem_append_right _ (List.mem_map_of_mem hlock)
  rcases h.careful.projects.changes id with (hsame | ⟨q, q', hq, hq', hwrites⟩) | ⟨hkey, -⟩
  · exact .inl ⟨hlocked, p, f p, hsame.symm.trans hp, hnew, hf⟩
  · obtain rfl := Option.some.inj (hp.symm.trans hq')
    exact .inl ⟨hlocked, q, f p, hq, hnew, Nat.lt_of_le_of_lt hwrites.revision hf⟩
  · exact .inr (List.mem_append_left _ hkey)

theorem statements_bumpRevision (id : Nat) (detail : Option (DetailKind × Nat)) :
    (bumpRevision env id).Statements (fun drawn l c =>
      FinStatement u (Permit.change id detail) drawn l c ∧
        ∀ v t, (c v t).projectOperations = t.projectOperations) [] :=
  (statements_updateProject fun p => writes_revised env id detail p).and_leaves
    (leaves_updateProject _ _ _)

theorem amid_bumpRevision (env : FinEnvironment) {id : Nat} {seen : List FinStore}
    (h : FinGoing u w seen d s) :
    (bumpRevision env id).amid (finDiscipline u).Rely (finDiscipline u).unused
      (fun _ d s => RaisedBy d s id) d s := by
  refine (Txn.amid_act _ _).mpr fun s' hs p' c hc => ?_
  have hgoing := h.later hs
  cases hfind : (d.change s').projects.find? id with
  | none => simp [hfind] at hc
  | some p =>
      have hkey : (p.revised env).key = p.key := rfl
      simp only [hfind, hkey, ne_eq, not_true, false_and, if_false, Except.ok.injEq,
        Prod.mk.injEq] at hc
      obtain ⟨-, rfl⟩ := hc
      exact hgoing.raised_update hfind (Nat.lt_succ_self _)
        (by simp only; exact List.mem_cons_self) fun _ => rfl

/-- What the body of a change of amounts leaves for the revision of the project. -/
structure DetailDone (u : Unicode) (projectId : Nat) (detail : Option (DetailKind × Nat))
    (a : FinActivity) (seen : List FinStore) (outcome : DetailOutcome) (d : FinDraft)
    (s : FinStore) : Prop where
  going : FinGoing u (Permit.change projectId detail) seen d s
  permit : (Permit.change projectId detail).For a seen
  ends : (outcome.changed = true ∧ Recorded projectId d.holds s (d.change s)) ∨
    (outcome.changed = false ∧ (d.Idle ∨ (Recorded projectId d.holds s (d.change s) ∧
      RaisedBy d s projectId)))

theorem DetailDone.settled {projectId : Nat} {detail : Option (DetailKind × Nat)}
    (hgoing : FinGoing u (Permit.change projectId detail) seen d s)
    (hfor : (Permit.change projectId detail).For a seen)
    (hends : d.Idle ∨ (Recorded projectId d.holds s (d.change s) ∧ RaisedBy d s projectId)) :
    ∃ w, FinSettled u a w d s :=
  ⟨_,
    { careful := hgoing.careful
      permit := hfor.mono hgoing.seen
      accounted := fun i hi => by
        obtain rfl : i = projectId := hi
        exact hends.imp (fun hidle t k => by rw [hidle t]) And.right
      recorded := fun i hi => by
        obtain rfl : i = projectId := hi
        exact .inr (.inr (hends.imp (fun hidle t k => by rw [hidle t]) And.left)) }⟩

/-- What the body of a change of amounts does, amid others. -/
structure DetailBody (u : Unicode) (a : FinActivity) (projectId : Nat)
    (run : Project → FinTx DetailOutcome) : Prop where
  amid : ∀ project d s, FinStart d s →
    (run project).amid (finDiscipline u).Rely (finDiscipline u).unused
      (fun outcome d s => ∃ detail seen, DetailDone u projectId detail a seen outcome d s) d s

theorem amid_detailChangeRun {env : FinEnvironment} {projectId : Nat}
    {run : Project → FinTx DetailOutcome} (hstart : FinStart d s)
    (hrun : DetailBody u a projectId run) :
    AllowedRun (finDiscipline u) a (detailChangeRun env projectId run) d s := by
  refine allowedRun_of_settled (Txn.amid_seq (amid_findLiveProject hstart projectId) ?_)
  intro project d s ⟨hstart, _, _⟩
  refine Txn.amid_seq (hrun.amid project d s hstart) ?_
  intro outcome d s ⟨detail, seen, hdone⟩
  split
  · rename_i hchanged
    have hrecorded := (hdone.ends.resolve_right fun h => by simp [h.1] at hchanged).2
    refine Txn.amid_seq (Txn.amid_and ((statements_bumpRevision env projectId detail).amid
      (tracks_recorded _ _ _ _) ⟨hdone.going, hrecorded⟩)
      (amid_bumpRevision env hdone.going)) ?_
    exact fun _ d s ⟨⟨hgoing, hrecorded⟩, hraised⟩ =>
      DetailDone.settled hgoing hdone.permit (.inr ⟨hrecorded, hraised⟩)
  · rename_i hchanged
    have hends := (hdone.ends.resolve_left fun h => hchanged h.1).2
    exact DetailDone.settled hdone.going hdone.permit hends

theorem detailBody_create (projectId : Nat) (kind : DetailKind) (dto : DetailDto)
    (hrestore : a.isRestore = false) (himport : a.isImport = false) :
    DetailBody u a projectId (createBody operator projectId kind dto) := by
  refine ⟨fun project d s hstart => ?_⟩
  have htracks := tracks_finGoing u (Permit.change projectId none) d.seen
  have hgoing := hstart.going u (Permit.change projectId none)
  unfold createBody
  generalize parseDetailItem dto.item = parse
  refine Txn.amid_liftExcept_bind fun parsed _ => ?_
  refine Txn.amid_seq ((statements_createDetail rfl).amid htracks hgoing) fun id d₁ s₁ hgoing => ?_
  refine Txn.amid_seq (Txn.amid_and ((statements_writeProjectChange _ _ _ _ _ _).amid htracks
    hgoing) (amid_writeProjectChange (Option.some_ne_none _).symm)) fun _ d₂ s₂ ⟨hgoing, hrecorded⟩ => ?_
  exact ⟨none, d.seen, hgoing, permitFor_change hrestore himport nofun, .inl ⟨rfl, hrecorded⟩⟩

theorem amid_findDetail {kind : DetailKind} {id projectId : Nat} (hstart : FinStart d s) :
    (findDetail kind id projectId).amid (finDiscipline u).Rely (finDiscipline u).unused
      (fun _ d' s' => FinStart d' s' ∧
        ∀ k, some (kind, id) = some k → ∃ v ∈ d'.seen, ∃ x, detailsRows.row k v = some x ∧
          x.projectId = projectId) d s := by
  refine Txn.amid_query_bind fun s' hs => Txn.amid_orThrow fun x hx => ?_
  rw [hstart.idle s'] at hx
  obtain ⟨hfind, howner⟩ := Option.filter_eq_some_iff.mp hx
  refine ⟨hstart.read hs, fun k hk => ?_⟩
  cases hk
  exact ⟨s', by simp, x, hfind, by simpa using howner⟩

theorem detailBody_update (projectId : Nat) (kind : DetailKind) (detailId : Nat) (dto : DetailDto)
    (hrestore : a.isRestore = false) (himport : a.isImport = false) :
    DetailBody u a projectId (updateBody operator projectId kind detailId dto) := by
  refine ⟨fun project d s hstart => ?_⟩
  unfold updateBody
  generalize parseDetailItem dto.item = parse
  refine Txn.amid_seq (amid_findDetail hstart) fun existing d₁ s₁ ⟨hstart₁, howned⟩ => ?_
  have htracks := tracks_finGoing u (Permit.change projectId (some (kind, detailId))) d₁.seen
  have hgoing := hstart₁.going u (Permit.change projectId (some (kind, detailId)))
  have hfor := permitFor_change hrestore himport howned
  refine Txn.amid_liftExcept_bind fun next _ => ?_
  dsimp only
  split
  · exact ⟨_, _, hgoing, hfor, .inr ⟨rfl, .inl hstart₁.idle⟩⟩
  rename_i hdiff
  refine Txn.amid_seq ((statements_updateDetail rfl).amid htracks hgoing) fun _ d₂ s₂ hgoing => ?_
  refine Txn.amid_seq (Txn.amid_and ((statements_writeProjectChange _ _ _ _ _ _).amid htracks
    hgoing) (amid_writeProjectChange fun heq => hdiff (Option.some.inj heq ▸ Json.beq_self _)))
      fun _ d₃ s₃ ⟨hgoing, hrecorded⟩ => ?_
  exact ⟨_, _, hgoing, hfor, .inl ⟨rfl, hrecorded⟩⟩

theorem detailBody_remove (operator : OperationLogOperator) (projectId : Nat) (kind : DetailKind)
    (detailId : Nat) (hrestore : a.isRestore = false) (himport : a.isImport = false) :
    DetailBody u a projectId (removeBody env operator projectId kind detailId) := by
  refine ⟨fun project d s hstart => ?_⟩
  unfold removeBody
  refine Txn.amid_seq (amid_findDetail hstart) fun existing d₁ s₁ ⟨hstart₁, howned⟩ => ?_
  have htracks := tracks_finGoing u (Permit.change projectId (some (kind, detailId))) d₁.seen
  have hgoing := hstart₁.going u (Permit.change projectId (some (kind, detailId)))
  have hfor := permitFor_change hrestore himport howned
  refine Txn.amid_seq ((statements_deleteDetail rfl).amid htracks hgoing) fun _ d₂ s₂ hgoing => ?_
  refine Txn.amid_seq (Txn.amid_and ((statements_writeProjectChange _ _ _ _ _ _).amid htracks
    hgoing) (amid_writeProjectChange (Option.some_ne_none _))) fun _ d₃ s₃ ⟨hgoing, hrecorded⟩ => ?_
  refine Txn.amid_seq (Txn.amid_and ((statements_bumpRevision env projectId _).amid
    (tracks_recorded _ _ _ _) ⟨hgoing, hrecorded⟩) (amid_bumpRevision env hgoing)) ?_
  intro updated d₄ s₄ ⟨hgoing, hraised⟩
  refine Txn.amid_seq (Txn.amid_and ((statements_recalcAuto _ _).amid (tracks_recorded _ _ _ _)
    hgoing) ((statements_of_quiet (leaves_recalcAuto _ _) _).amid
      (tracks_raised u _ _ fun i => i = projectId)
      ⟨hgoing.1, fun i hi => by rwa [show i = projectId from hi]⟩)) ?_
  intro auto d₅ s₅ ⟨⟨hgoing, hrecorded⟩, _, hraised⟩
  exact ⟨_, _, hgoing, hfor, .inr ⟨rfl, .inr ⟨hrecorded, hraised _ rfl⟩⟩⟩

end Details

section Dictionary

open DictService

variable {u : Unicode} {w : Permit} {drawn : List Nat}

theorem finStatement_dictionary {l : FinStore → List FinLock} {c : FinStore → FinStore → FinStore}
    (h : ∀ v t, ∃ items, c v t = { t with financeDictItems := items }) :
    FinStatement u w drawn l c := by
  refine finStatement_of_leaves (fun v t => ?_) (fun v t => ?_) fun v t kind => ?_
  all_goals
    obtain ⟨items, hitems⟩ := h v t
    rw [hitems]
  exact FinStore.details_financeDictItems t items kind

theorem statements_dictCreateRun (dto : DictItemCreateDto) :
    (createRun env dto).Statements (FinStatement u w) [] := by
  have hadmits := finStatement_admits u w
  refine (Txn.statements_guard _ _).bind hadmits fun _ => ?_
  refine (Txn.statements_guard _ _).bind hadmits fun _ => ?_
  refine (Txn.statements_create fun n => finStatement_dictionary fun v t => ?_).bind hadmits
    fun _ => Txn.statements_pure _
  split
  · exact ⟨_, rfl⟩
  · exact ⟨t.financeDictItems, rfl⟩

theorem statements_dictUpdateRun (id : Nat) (dto : DictItemUpdateDto) :
    (updateRun env id dto).Statements (FinStatement u w) [] := by
  have hadmits := finStatement_admits u w
  refine (Txn.statements_query hadmits _).bind hadmits fun _ => ?_
  refine (Txn.statements_orThrow _ _).bind hadmits fun existing => ?_
  refine (Txn.statements_guard _ _).bind hadmits fun _ => ?_
  refine (Txn.statements_guard _ _).bind hadmits fun _ => ?_
  have hitem : (updateItem id (dto.writeOver existing)).Statements (FinStatement u w) [] := by
    refine Txn.statements_act (finStatement_dictionary fun v t => ?_)
    cases v.financeDictItems.find? id with
    | none => exact ⟨t.financeDictItems, rfl⟩
    | some item =>
        dsimp only
        split_ifs
        · exact ⟨t.financeDictItems, rfl⟩
        · exact ⟨_, rfl⟩
  dsimp only
  split
  · refine (Txn.statements_query hadmits _).bind hadmits fun refs => ?_
    exact (Txn.statements_guard _ _).bind hadmits fun _ => hitem.bind hadmits fun _ =>
      Txn.statements_pure _
  · exact (Txn.statements_guard _ _).bind hadmits fun _ => hitem.bind hadmits fun _ =>
      Txn.statements_pure _

theorem statements_dictDeleteRun (ids : List Nat) :
    (batchDeleteRun ids).Statements (FinStatement u w) [] := by
  have hadmits := finStatement_admits u w
  refine (Txn.statements_query hadmits _).bind hadmits fun _ => ?_
  refine (Txn.statements_guard _ _).bind hadmits fun _ => ?_
  exact (Txn.statements_act (finStatement_dictionary fun v t => ⟨_, rfl⟩)).bind hadmits fun _ =>
    Txn.statements_pure _

end Dictionary

end Wbme.Fin

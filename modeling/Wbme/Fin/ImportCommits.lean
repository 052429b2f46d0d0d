import Wbme.Fin.Commits

/-! # Imports amid others

An import writes over the projects it was told to, at the revisions it was told, and builds
anew the amounts of no others. With it every operation keeps to the discipline.
-/

namespace Wbme.Fin

open Lib

/-! ## Plans -/

def OverwriteItem.From (choices : List ImportChoiceDto) (item : OverwriteItem) : Prop :=
  ∃ choice ∈ choices, choice.decision = .overwrite ∧ choice.projectId = some item.targetId ∧
    choice.dataRevision = some item.dataRevision

def Permit.overwrite (toOverwrite : List OverwriteItem) : Permit where
  writes id n := ∃ item ∈ toOverwrite, item.targetId = id ∧ item.dataRevision = n
  raises _ := True
  restores := False
  readName := .none
  owners id := ∃ item ∈ toOverwrite, item.targetId = id
  detail := .none

variable {buffer : Buffer}

namespace ImportService

variable {toOverwrite : List OverwriteItem} {choices : List ImportChoiceDto}
  {preview : ImportPreviewResult} {env : ConfirmEnvironment} {items : Table FinanceDictItem}
  {inputs : List ProjectRowInput} {input : ProjectRowInput}

variable {u : Unicode} {choice : ImportChoiceDto} {dto : ImportConfirmDto} {item : OverwriteItem}
  {data : ProjectData}

theorem overwriteOf_ok {pending : PendingChoiceItem}
    (h : overwriteOf input pending choice = .ok item) :
    choice.projectId = some item.targetId ∧ choice.dataRevision = some item.dataRevision := by
  unfold overwriteOf at h
  split at h
  · rename_i projectId dataRevision hproject hrevision
    split_ifs at h
    cases h
    exact ⟨hproject, hrevision⟩
  · cases h

theorem choiceFor_mem {rowNumber : Nat} (h : choiceFor choices rowNumber = some choice) :
    choice ∈ choices :=
  List.mem_reverse.mp (List.mem_of_find?_eq_some h)

theorem planRow_from {plan plan' : ImportPlan}
    (hplan : ∀ item ∈ plan.toOverwrite, item.From choices)
    (h : planRow preview choices plan input = .ok plan') :
    ∀ item ∈ plan'.toOverwrite, item.From choices := by
  simp only [planRow] at h
  split at h
  · split at h <;> cases h <;> exact hplan
  · split at h
    · cases h
      exact hplan
    · split at h
      · cases h
        exact hplan
      · rename_i pending _ _ choice hchoice
        split_ifs at h with hskip
        · cases h
          exact hplan
        · cases hitem : overwriteOf input pending choice with
          | error e =>
              rw [hitem] at h
              cases h
          | ok item =>
              rw [hitem] at h
              cases h
              intro i hi
              rcases List.mem_append.mp hi with hi | hi
              · exact hplan i hi
              · obtain rfl := List.mem_singleton.mp hi
                have hdecision : choice.decision = .overwrite := by
                  cases hd : choice.decision with
                  | overwrite => rfl
                  | skip => exact absurd hd hskip
                exact ⟨choice, choiceFor_mem hchoice, hdecision, overwriteOf_ok hitem⟩

theorem planRows_from {plan : ImportPlan} (h : planRows preview choices inputs = .ok plan) :
    ∀ item ∈ plan.toOverwrite, item.From choices :=
  foldlM_keeps (P := fun plan : ImportPlan => ∀ item ∈ plan.toOverwrite, item.From choices)
    (fun _ _ _ hplan hrow => planRow_from hplan hrow) (by simp) h

theorem buildProjectDataFromInput_ok {existing : Option Project}
    (h : buildProjectDataFromInput u items input existing = .ok data) : data.Lawful u := by
  simp only [buildProjectDataFromInput, bind, Except.bind, pure, Except.pure] at h
  repeat' split at h
  all_goals cases h
  rfl

theorem flatten_toChunks {α : Type} (n : Nat) (xs : List α) : (xs.toChunks n).flatten = xs := by
  have hgo : ∀ (n : Nat) (xs : List α) (acc₁ : Array α) (acc₂ : Array (List α)),
      (List.toChunks.go n xs acc₁ acc₂).flatten = acc₂.toList.flatten ++ acc₁.toList ++ xs := by
    intro n xs
    induction xs with
    | nil =>
        intro acc₁ acc₂
        simp [List.toChunks.go]
    | cons x xs ih =>
        intro acc₁ acc₂
        rw [List.toChunks.go]
        split
        · rw [ih]
          simp
        · rw [ih]
          simp
  unfold List.toChunks
  split
  · rfl
  · simp
  · rw [hgo]
    simp

section Statements

variable {u : Unicode} {w : Permit}

theorem permitFor_overwrite {a : FinActivity} (hoperation : a.operation = .importConfirm buffer dto)
    (hfrom : ∀ item ∈ toOverwrite, item.From dto.choices) (seen : List FinStore) :
    (Permit.overwrite toOverwrite).For a seen where
  restores h := by simp [FinActivity.isRestore, hoperation] at h
  chosen id n h buffer' dto' hoperation' := by
    rw [hoperation] at hoperation'
    cases hoperation'
    obtain ⟨item, hitem, rfl, rfl⟩ := h
    exact hfrom item hitem
  read _ h := nomatch h
  owned _ h := nomatch h

theorem statements_createBatches (env : ConfirmEnvironment) (hread : w.readName = none)
    (batches : List (Nat × List ProjectData))
    (h : ∀ batch ∈ batches, ∀ data ∈ batch.2, data.Lawful env.unicode) :
    (createBatches env batches).Statements (FinStatement env.unicode w) [] := by
  have hadmits := finStatement_admits env.unicode w
  induction batches with
  | nil => exact Txn.statements_pure _
  | cons batch rest ih =>
      obtain ⟨n, batch⟩ := batch
      have hbatch := h _ List.mem_cons_self
      refine (Txn.statements_mapM hadmits fun data hdata => ?_).bind hadmits fun ids => ?_
      · exact statements_createProject hread (hbatch data hdata)
      refine (Txn.statements_liftExcept _).bind hadmits fun _ => ?_
      exact (ih fun b hb => h b (List.mem_cons_of_mem _ hb)).bind hadmits fun more =>
        Txn.statements_pure _

theorem statements_createAll (env : ConfirmEnvironment) (hread : w.readName = none)
    (items : Table FinanceDictItem) (toCreate : List ProjectRowInput) :
    (createAll env items toCreate).Statements (FinStatement env.unicode w) [] := by
  have hadmits := finStatement_admits env.unicode w
  unfold createAll
  split
  · exact Txn.statements_pure _
  refine (Txn.statements_liftExcept _).bind hadmits fun _ => ?_
  refine (Txn.statements_query hadmits _).bind hadmits fun _ => ?_
  refine (Txn.statements_guard _ _).bind hadmits fun _ => ?_
  refine (Txn.statements_liftExcept _).bind hadmits fun _ => ?_
  refine (Txn.statements_liftExcept _).bind_yields hadmits
    (Q := fun data => ∀ x ∈ data, x.Lawful env.unicode)
    (Txn.yields_liftExcept fun data hdata x hx => ?_) fun data hdata => ?_
  · obtain ⟨input, -, hinput⟩ := mem_mapM hdata hx
    exact buildProjectDataFromInput_ok hinput
  refine statements_createBatches env hread _ fun batch hbatch x hx => hdata x ?_
  simp only [batchesOf, List.mem_map, Prod.exists] at hbatch
  obtain ⟨chunk, n, hchunk, rfl⟩ := hbatch
  rw [← flatten_toChunks createBatchSize data]
  exact List.mem_flatten.mpr ⟨chunk, List.fst_mem_of_mem_zipIdx hchunk, hx⟩

theorem writes_overwrite {env : FinEnvironment} (hitem : item ∈ toOverwrite) (hdata : data.Lawful u)
    {p : Project} (hp : p.dataRevision = item.dataRevision) :
    (Permit.overwrite toOverwrite).Writes u item.targetId p (data.writeOver env p) where
  allowed := ⟨item, hitem, rfl, hp.symm⟩
  revision := Nat.le_succ _
  content heq := absurd heq (Nat.succ_ne_self _)
  raised _ := trivial
  restored h := h.elim
  keepsName h := absurd rfl h
  named := .inr (.inl hdata)

variable {kind : DetailKind}

variable {projectIds : List Nat}

theorem mem_detailIdsOf {v : FinStore} {id : Nat} :
    id ∈ detailIdsOf v kind projectIds ↔
      ∃ x, (v.details kind).find? id = some x ∧ x.projectId ∈ projectIds := by
  simp only [detailIdsOf, List.mem_map, Prod.exists]
  constructor
  · intro ⟨i, x, hx, hi⟩
    obtain ⟨hfind, hmem⟩ := Table.mem_select.mp hx
    subst hi
    exact ⟨x, hfind, by simpa using hmem⟩
  · intro ⟨x, hfind, hmem⟩
    exact ⟨id, x, Table.mem_select.mpr ⟨hfind, by simpa using hmem⟩, rfl⟩

theorem statements_deleteDetailsOf (howners : ∀ id ∈ projectIds, w.owners id) :
    (deleteDetailsOf kind projectIds).Statements (FinStatement u w) [] := by
  refine Txn.statements_exec (finStatement_alter kind (fun _ => none)
    (fun x x' hx => nomatch hx) fun v => .inr ⟨detailIdsOf v kind projectIds, fun id hid => ?_,
      fun t => ?_⟩)
  · obtain ⟨x, hfind, hmem⟩ := mem_detailIdsOf.mp hid
    refine ⟨List.mem_map_of_mem hid, by simp [hfind], .inr fun y hy => ?_⟩
    obtain rfl := Option.some.inj (hfind.symm.trans hy)
    exact howners _ hmem
  · simp [Table.deleteMany]

theorem detailRows_owner {toOverwrite : List OverwriteItem} {kind : DetailKind}
    {rows : List (Nat × DetailItem)} (h : detailRows toOverwrite kind = .ok rows) :
    ∀ row ∈ rows, ∃ item ∈ toOverwrite, item.targetId = row.1 := by
  intro row hrow
  unfold detailRows at h
  cases hm : toOverwrite.mapM fun item => do
      let amounts ← (amountsOf item.input kind).mapM (storeDecimal kind.table)
      pure (amounts.map fun amount => (item.targetId, bareItem amount)) with
  | error e =>
      rw [hm] at h
      cases h
  | ok lists =>
      rw [hm] at h
      cases h
      obtain ⟨list, hlist, hmem⟩ := List.mem_flatten.mp hrow
      obtain ⟨item, hitem, hbuilt⟩ := mem_mapM hm hlist
      cases hamounts : (amountsOf item.input kind).mapM (storeDecimal kind.table) with
      | error e =>
          rw [hamounts] at hbuilt
          cases hbuilt
      | ok amounts =>
          rw [hamounts] at hbuilt
          cases hbuilt
          obtain ⟨amount, -, rfl⟩ := List.mem_map.mp hmem
          exact ⟨item, hitem, rfl⟩

theorem statements_createDetails {rows : List (Nat × DetailItem)}
    (h : ∀ row ∈ rows, w.owners row.1) :
    (createDetails kind rows).Statements (FinStatement u w) [] := by
  have hadmits := finStatement_admits u w
  refine Txn.statements_forM hadmits fun row hrow => ?_
  exact (statements_createDetail (h row hrow)).bind hadmits fun _ => Txn.statements_pure _

theorem statements_batchRebuildDetails :
    (batchRebuildDetails toOverwrite).Statements
      (FinStatement u (Permit.overwrite toOverwrite)) [] := by
  have hadmits := finStatement_admits u (Permit.overwrite toOverwrite)
  have hrows : ∀ kind, (Txn.liftExcept (detailRows toOverwrite kind) :
      FinTx (List (Nat × DetailItem))).Yields fun rows =>
        ∀ row ∈ rows, (Permit.overwrite toOverwrite).owners row.1 :=
    fun kind => Txn.yields_liftExcept fun rows h => detailRows_owner h
  refine (Txn.statements_liftExcept _).bind_yields hadmits (hrows _) fun invoices hinvoices => ?_
  refine (Txn.statements_liftExcept _).bind_yields hadmits (hrows _) fun receipts hreceipts => ?_
  refine (Txn.statements_liftExcept _).bind_yields hadmits (hrows _) fun payments hpayments => ?_
  exact (statements_createDetails hinvoices).bind hadmits fun _ =>
    (statements_createDetails hreceipts).bind hadmits fun _ => statements_createDetails hpayments

theorem quiet_batchSnapshotDetails (projectIds : List Nat) :
    (batchSnapshotDetails projectIds).Quiet :=
  (Txn.leaves_query _).bind fun _ => (Txn.leaves_query _).bind fun _ =>
    (Txn.leaves_query _).bind fun _ => Txn.leaves_pure _

theorem statements_overwriteOne {rows : Table Project} {item : Nat × OverwriteItem}
    (hitem : item.2 ∈ toOverwrite) :
    (overwriteOne env items rows item).Statements
      (FinStatement env.unicode (Permit.overwrite toOverwrite)) [] := by
  have hadmits := finStatement_admits env.unicode (Permit.overwrite toOverwrite)
  refine (Txn.statements_liftExcept _).bind_yields hadmits
    (Txn.yields_liftExcept fun data hdata => buildProjectDataFromInput_ok hdata) fun data hdata => ?_
  refine (Txn.statements_liftExcept _).bind hadmits fun _ => ?_
  refine Txn.Statements.bind hadmits
    (statements_updateProjectAt fun p hp => writes_overwrite hitem hdata hp) fun updated => ?_
  exact Txn.statements_guard _ _

end Statements

section Overwrite

variable {u : Unicode} {w : Permit} {seen : List FinStore} {d : FinDraft} {s : FinStore}

theorem amid_overwriteOne {env : ConfirmEnvironment} {items : Table FinanceDictItem}
    {rows : Table Project} {item : Nat × OverwriteItem} (h : FinGoing u w seen d s) :
    (overwriteOne env items rows item).amid (finDiscipline u).Rely (finDiscipline u).unused
      (fun _ d s => RaisedBy d s item.2.targetId) d s := by
  refine Txn.amid_liftExcept_bind fun data _ => Txn.amid_liftExcept_bind fun _ _ => ?_
  refine (Txn.amid_bind _ _).mpr ((Txn.amid_act _ _).mpr fun s' hs updated c hc => ?_)
  refine Txn.amid_guard fun hupdated => ?_
  subst hupdated
  cases hfind : ((d.change s').projects.find? item.2.targetId).filter fun p =>
      p.dataRevision == item.2.dataRevision with
  | none => simp [hfind] at hc
  | some p =>
      simp only [hfind] at hc ⊢
      split_ifs at hc
      cases hc
      exact (h.later hs).raised_update (Option.filter_eq_some_iff.mp hfind).1 (Nat.lt_succ_self _)
        List.mem_cons_self fun _ => rfl

/-- What an import is under way to when it has written over its targets. -/
abbrev Overwritten (u : Unicode) (toOverwrite : List OverwriteItem) (seen : List FinStore)
    (d : FinDraft) (s : FinStore) : Prop :=
  FinGoing u (Permit.overwrite toOverwrite) seen d s ∧
    ∀ id, (∃ item ∈ toOverwrite, item.targetId = id) → RaisedBy d s id

theorem amid_overwriteTargets {env : ConfirmEnvironment} {items : Table FinanceDictItem}
    {rows : Table Project} {toOverwrite : List OverwriteItem} {done todo : List (Nat × OverwriteItem)}
    (htodo : ∀ item ∈ todo, item.2 ∈ toOverwrite)
    (h : FinGoing env.unicode (Permit.overwrite toOverwrite) seen d s ∧
      ∀ id, (∃ item ∈ done, item.2.targetId = id) → RaisedBy d s id) :
    (todo.forM (overwriteOne env items rows)).amid (finDiscipline env.unicode).Rely
      (finDiscipline env.unicode).unused
      (fun _ d s => FinGoing env.unicode (Permit.overwrite toOverwrite) seen d s ∧
        ∀ id, (∃ item ∈ done ++ todo, item.2.targetId = id) → RaisedBy d s id) d s := by
  induction todo generalizing done d s with
  | nil =>
      rw [List.append_nil]
      exact h
  | cons item todo ih =>
      refine Txn.amid_seq (Txn.amid_and ((statements_overwriteOne (htodo item
        List.mem_cons_self)).amid (tracks_raised _ _ _ _) h) (amid_overwriteOne h.1)) ?_
      intro _ d s ⟨⟨hgoing, hdone⟩, hraised⟩
      have hnext : FinGoing env.unicode (Permit.overwrite toOverwrite) seen d s ∧
          ∀ id, (∃ i ∈ done ++ [item], i.2.targetId = id) → RaisedBy d s id := by
        refine ⟨hgoing, fun id hid => ?_⟩
        obtain ⟨i, hi, rfl⟩ := hid
        rcases List.mem_append.mp hi with hi | hi
        · exact hdone _ ⟨i, hi, rfl⟩
        · obtain rfl := List.mem_singleton.mp hi
          exact hraised
      have hrest := ih (fun i hi => htodo i (List.mem_cons_of_mem _ hi)) hnext
      rwa [List.append_assoc, List.singleton_append] at hrest

theorem amid_overwriteAll (h : FinGoing env.unicode (Permit.overwrite toOverwrite) seen d s) :
    (overwriteAll env items toOverwrite).amid (finDiscipline env.unicode).Rely
      (finDiscipline env.unicode).unused
      (fun _ d s => Overwritten env.unicode toOverwrite seen d s) d s := by
  unfold overwriteAll
  split
  · rename_i hempty
    rw [List.isEmpty_iff] at hempty
    subst hempty
    exact ⟨h, fun id ⟨item, hitem, _⟩ => nomatch hitem⟩
  have hadmits := finStatement_admits env.unicode (Permit.overwrite toOverwrite)
  have htargets : ∀ id ∈ toOverwrite.map (·.targetId), (Permit.overwrite toOverwrite).owners id := by
    intro id hid
    obtain ⟨item, hitem, rfl⟩ := List.mem_map.mp hid
    exact ⟨item, hitem, rfl⟩
  refine Txn.amid_liftExcept_bind fun _ _ => ?_
  refine Txn.amid_seq ((Txn.statements_query hadmits _).amid (tracks_finGoing _ _ _) h)
    fun rows d s h => ?_
  refine Txn.amid_liftExcept_bind fun _ _ => ?_
  refine Txn.amid_seq ((statements_of_quiet (quiet_batchSnapshotDetails _) _).amid
    (tracks_finGoing _ _ _) h) fun before d s h => ?_
  have hnone : FinGoing env.unicode (Permit.overwrite toOverwrite) seen d s ∧
      ∀ id, (∃ item ∈ ([] : List (Nat × OverwriteItem)), item.2.targetId = id) → RaisedBy d s id :=
    ⟨h, fun id ⟨item, hitem, _⟩ => nomatch hitem⟩
  refine Txn.amid_seq (amid_overwriteTargets (fun item hitem => ?_) hnone)
    fun _ d s ⟨h, hraised⟩ => ?_
  · obtain ⟨pair, hpair, rfl⟩ := List.mem_map.mp hitem
    exact List.fst_mem_of_mem_zipIdx hpair
  have hoverwritten : Overwritten env.unicode toOverwrite seen d s := by
    refine ⟨h, fun id ⟨item, hitem, hid⟩ => hraised id ?_⟩
    obtain ⟨n, hn⟩ := List.mem_iff_getElem?.mp hitem
    exact ⟨(n, item), List.mem_map_of_mem (List.mk_mem_zipIdx_iff_getElem?.mpr hn), hid⟩
  refine Txn.amid_liftExcept_bind fun _ _ => ?_
  have htail := tracks_raised env.unicode (Permit.overwrite toOverwrite) seen
    fun id => ∃ item ∈ toOverwrite, item.targetId = id
  refine Txn.amid_seq ((statements_deleteDetailsOf htargets).amid htail hoverwritten)
    fun _ d s h => ?_
  refine Txn.amid_seq ((statements_deleteDetailsOf htargets).amid htail h) fun _ d s h => ?_
  refine Txn.amid_seq ((statements_deleteDetailsOf htargets).amid htail h) fun _ d s h => ?_
  refine Txn.amid_seq (statements_batchRebuildDetails.amid htail h) fun _ d s h => ?_
  exact Txn.amid_seq ((statements_of_quiet (quiet_batchSnapshotDetails _) _).amid htail h)
    fun _ d s h => h

end Overwrite

section Confirm

variable {a : FinActivity} {d : FinDraft} {s : FinStore}

/-- What an import has done when it is through. -/
abbrev Imported (u : Unicode) (choices : List ImportChoiceDto) (d : FinDraft) (s : FinStore) :
    Prop :=
  ∃ toOverwrite seen, (∀ item ∈ toOverwrite, item.From choices) ∧
    Overwritten u toOverwrite seen d s

variable {operator : OperationLogOperator}

theorem amid_applyImport (hstart : FinStart d s) :
    (applyImport env operator inputs preview choices).amid (finDiscipline env.unicode).Rely
      (finDiscipline env.unicode).unused
      (fun _ d s => Imported env.unicode choices d s) d s := by
  unfold applyImport
  split
  · refine ⟨[], d.seen, fun _ hitem => (nomatch hitem), hstart.going _ _, fun id hid => ?_⟩
    obtain ⟨item, hitem, -⟩ := hid
    cases hitem
  refine Txn.amid_seq (Txn.amid_liftExcept (Q := fun _ d s => FinStart d s) fun _ _ => hstart)
    fun _ d s hstart => ?_
  refine Txn.amid_query_bind fun s₁ hs₁ => ?_
  refine Txn.amid_seq (Txn.amid_liftExcept (Q := fun plan d s => FinStart d s ∧
    ∀ item ∈ plan.toOverwrite, item.From choices) fun plan hplan => ?_) fun plan d s h => ?_
  · exact ⟨hstart.read hs₁, planRows_from hplan⟩
  obtain ⟨hstart, hfrom⟩ := h
  have hadmits := finStatement_admits env.unicode (Permit.overwrite plan.toOverwrite)
  have hgoing := hstart.going env.unicode (Permit.overwrite plan.toOverwrite)
  refine Txn.amid_seq ((statements_createAll env rfl _ _).amid (tracks_finGoing _ _ _) hgoing)
    fun createdIds d s hgoing => ?_
  refine Txn.amid_seq (amid_overwriteAll hgoing) fun overwritten d s hoverwritten => ?_
  refine Txn.amid_seq (Txn.amid_liftExcept (Q := fun _ d s => Overwritten env.unicode
    plan.toOverwrite _ d s) fun _ _ => hoverwritten) fun _ d s hoverwritten => ?_
  refine Txn.amid_seq ((Txn.statements_forM hadmits fun operation _ =>
    statements_writeProjectOperation operation).amid (tracks_raised _ _ _ _) hoverwritten)
      fun _ d s hoverwritten => ?_
  exact Txn.amid_seq (Txn.amid_liftExcept fun _ _ => hoverwritten)
    fun _ d s hoverwritten => ⟨plan.toOverwrite, _, hfrom, hoverwritten⟩

theorem allowedRun_confirmRun (hoperation : a.operation = .importConfirm buffer dto)
    (hstart : FinStart d s) :
    AllowedRun (finDiscipline env.unicode) a
      (confirmRun env operator inputs preview dto.choices) d s := by
  refine allowedRun_of_settled (Txn.amid_seq (amid_applyImport hstart) ?_)
  intro result d s ⟨toOverwrite, seen, hfrom, hgoing, hraised⟩
  refine Txn.amid_liftExcept_bind fun _ _ => Txn.amid_liftExcept_bind fun _ _ => ?_
  exact ⟨_,
    { careful := hgoing.careful
      permit := permitFor_overwrite hoperation hfrom d.seen
      accounted := fun id hid => .inr (hraised id hid)
      recorded := fun _ _ => .inl (by simp [FinActivity.isImport, hoperation]) }⟩

theorem amid_buildRowInputsWithGroups (env : ImportEnvironment) (file : ParsedFile)
    (hstart : FinStart d s) :
    (buildRowInputsWithGroups env file).amid (finDiscipline u).Rely (finDiscipline u).unused
      (fun _ d s => FinStart d s) d s :=
  Txn.amid_query_bind fun _ hs => hstart.read hs

theorem amid_matchRows (env : ImportEnvironment) (file : ParsedFile) (hstart : FinStart d s) :
    (matchRows env file).amid (finDiscipline u).Rely (finDiscipline u).unused
      (fun _ d s => FinStart d s) d s := by
  refine Txn.amid_seq (amid_buildRowInputsWithGroups env file hstart) fun inputs d s hstart => ?_
  dsimp only
  split
  · exact hstart
  refine Txn.amid_query_bind fun s₁ hs₁ => Txn.amid_query_bind fun s₂ hs₂ => ?_
  refine Txn.amid_query_bind fun s₃ hs₃ => Txn.amid_query_bind fun s₄ hs₄ => ?_
  exact (((hstart.read hs₁).read hs₂).read hs₃).read hs₄

end Confirm

end ImportService

section Kept

variable {u : Unicode} {a : FinActivity} {d : FinDraft} {s : FinStore}

variable (o : IdempotentOptions)

variable {run : FinTx (IdempotentOutcome FinReply)}

theorem allowed_call (hstart : FinStart d s) (hrun : ∀ d' s', FinStart d' s' →
      d'.seen.length = d.seen.length + (if o.key.isSome then 1 else 0) →
      AllowedRun (finDiscipline u) a run d' s') :
    (finDiscipline u).Allowed a (executeIdempotentOperation finLog o run).main d s := by
  refine allowed_executeIdempotentOperation (finDiscipline_logs u) o hstart.idle
    (Discipline.Rely.refl hstart.keyed) fun d' s' hfrom => hrun d' s' ?_ hfrom.seen
  exact ⟨hfrom.idle, fun n hn => hstart.keys n (hfrom.holds ▸ hn), hfrom.later.moved.1⟩

theorem allowed_recover (e : Failure) {p : FinTx FinReply}
    (h : replayAfterConflict finLog o e = some p) : (finDiscipline u).Allowed a p .empty s :=
  Discipline.allowed_of_quiet (quiet_replayAfterConflict finLog o e p h) Draft.idle_empty
    fun x d s hd => (finDiscipline_logs u).idle a x d s hd

theorem finStart_empty (h : Keyed s) : FinStart (.empty : FinDraft) s :=
  ⟨Draft.idle_empty, fun n hn => by simp at hn, h⟩

theorem kept_execute (hs : Keyed s) (hrun : ∀ d' s', FinStart d' s' →
      d'.seen.length = (if o.key.isSome then 1 else 0) → AllowedRun (finDiscipline u) a run d' s') :
    (finDiscipline u).Allowed a (executeIdempotentOperation finLog o run).main .empty s ∧
      ∀ e p, (executeIdempotentOperation finLog o run).recover e = some p →
        (finDiscipline u).Allowed a p .empty s := by
  refine ⟨allowed_call o (finStart_empty hs) fun d' s' hstart hseen => hrun d' s' hstart ?_,
    fun e p h => allowed_recover o e h⟩
  rw [hseen]
  exact Nat.zero_add _

theorem ImportService.kept_confirm (env : ImportService.ConfirmEnvironment)
    {dto : ImportService.ImportConfirmDto} (hoperation : a.operation = .importConfirm buffer dto)
    (operator : OperationLogOperator) (file : ParsedFile) (fingerprint : String) (hs : Keyed s) :
    (finDiscipline env.unicode).Allowed a
        (ImportService.confirm env operator file dto fingerprint).main .empty s ∧
      ∀ e p, (ImportService.confirm env operator file dto fingerprint).recover e = some p →
        (finDiscipline env.unicode).Allowed a p .empty s := by
  refine ⟨?_, fun e p h => allowed_recover _ e h⟩
  refine Txn.amid_liftExcept_bind fun _ _ => ?_
  refine Txn.amid_seq (ImportService.amid_matchRows _ file (finStart_empty hs))
    fun preview d s hstart => ?_
  refine Txn.amid_liftExcept_bind fun _ _ => ?_
  refine Txn.amid_seq (ImportService.amid_buildRowInputsWithGroups _ file hstart)
    fun inputs d s hstart => ?_
  refine Txn.amid_liftExcept_bind fun _ _ => allowed_call _ hstart fun d s hstart _ => ?_
  exact ImportService.allowedRun_confirmRun hoperation hstart

theorem finDiscipline_kept (r : FinRuntime) :
    (finDiscipline r.unicode).Kept (FinActivity.call r) := by
  intro a s hs
  obtain ⟨now, checkTimeout, operator, operation⟩ := a
  let env : FinEnvironment := { unicode := r.unicode, now }
  cases operation with
  | projectCreate dto =>
      refine kept_execute _ hs fun d s hstart _ => ?_
      exact allowedRun_of_statements (w := Permit.none) hstart
        (statements_createRun rfl env operator dto) (permitFor_none _) (fun _ h => h)
        fun _ h => h.elim
  | projectUpdate id dto =>
      exact kept_execute _ hs fun d s hstart _ =>
        allowedRun_update env operator id dto rfl rfl hstart
  | projectDelete ids key =>
      refine kept_execute _ hs fun d s hstart _ => ?_
      exact allowedRun_of_statements hstart (statements_batchDeleteRun env operator ids)
        (fun seen => permitFor_delete seen rfl rfl) (fun _ h => h) fun _ h => h.elim
  | projectRestore ids key =>
      refine kept_execute _ hs fun d s hstart _ => ?_
      exact allowedRun_of_statements hstart (statements_batchRestoreRun env operator ids)
        (fun seen => permitFor_restore seen rfl) (fun _ h => h) fun _ _ => .inr rfl
  | detailCreate projectId kind dto =>
      exact kept_execute _ hs fun d s hstart _ =>
        amid_detailChangeRun hstart (detailBody_create operator projectId kind dto rfl rfl)
  | detailUpdate projectId kind detailId dto =>
      exact kept_execute _ hs fun d s hstart _ =>
        amid_detailChangeRun hstart (detailBody_update operator projectId kind detailId dto rfl rfl)
  | detailRemove projectId kind detailId key =>
      exact kept_execute _ hs fun d s hstart _ =>
        amid_detailChangeRun hstart (detailBody_remove env operator projectId kind detailId rfl rfl)
  | dictCreate dto =>
      refine kept_execute _ hs fun d s hstart _ => ?_
      exact allowedRun_of_statements (w := Permit.none) hstart (statements_dictCreateRun env dto)
        (permitFor_none _) (fun _ h => h) fun _ h => h.elim
  | dictUpdate id dto =>
      refine kept_execute _ hs fun d s hstart _ => ?_
      exact allowedRun_of_statements (w := Permit.none) hstart (statements_dictUpdateRun env id dto)
        (permitFor_none _) (fun _ h => h) fun _ h => h.elim
  | dictDelete ids key =>
      refine kept_execute _ hs fun d s hstart _ => ?_
      exact allowedRun_of_statements (w := Permit.none) hstart (statements_dictDeleteRun ids)
        (permitFor_none _) (fun _ h => h) fun _ h => h.elim
  | cellSave dto =>
      simp only [FinActivity.call, ProfitService.cellSave]
      split
      · exact ⟨trivial, fun e p h => nomatch h⟩
      rename_i field hfield
      exact kept_execute _ hs fun d s hstart hseen =>
        allowedRun_cellSave env rfl hfield hstart hseen
  | importConfirm buffer dto =>
      simp only [FinActivity.call]
      split
      · exact ⟨trivial, fun e p h => nomatch h⟩
      rename_i file _
      let importEnv : ImportService.ConfirmEnvironment :=
        { unicode := r.unicode, now, number := r.number, checkTimeout }
      exact ImportService.kept_confirm importEnv rfl operator file _ hs

end Kept

end Wbme.Fin

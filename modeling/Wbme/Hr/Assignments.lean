import Wbme.Hr.Frames

/-! # Positions and departments of users

Every department of a user with a position is among the departments the position applies
to. Six operations write one side or the other. The invariant is carried through each of
them, through the loops that replace one side row by row, and from there through every
sequence of operations.
-/

namespace Wbme.Hr

open Lib Approval

/-- May the user be in the department, as far as the position goes? -/
def HrStore.Allows (s : HrStore) (userId d : Nat) : Prop :=
  ∀ p, s.positionOf userId = some p → d ∈ s.applicableTo p

/-- Every department of a user with a position is one the position applies to. -/
def HrStore.Fits (s : HrStore) : Prop :=
  ∀ userId, ∀ d ∈ s.departmentIdsOf userId, s.Allows userId d

/-- The assignments of a reachable store: the keys are drawn from the sequence, and positions
and departments agree. -/
structure Assigned (n : Nat) (s : HrStore) : Prop where
  userDepartments : s.userDepartments.Below n
  positionDepartments : s.positionDepartments.Below n
  fits : s.Fits

theorem assigned_empty (n : Nat) : Assigned n .empty :=
  ⟨Table.below_empty n, Table.below_empty n, fun _ _ _ _ h => by
    simp [HrStore.positionOf, HrStore.empty] at h⟩

theorem looksAtAssignments_assigned : LooksAtAssignments Assigned where
  mono n s h := ⟨h.userDepartments.mono (Nat.le_succ n), h.positionDepartments.mono (Nat.le_succ n),
    h.fits⟩
  congr n s s' hud hup hpd _ _ h := by
    refine ⟨by rw [hud]; exact h.userDepartments, by rw [hpd]; exact h.positionDepartments, ?_⟩
    intro userId d hd p hp
    have hd' : d ∈ s.departmentIdsOf userId := by simpa [HrStore.departmentIdsOf, hud] using hd
    have hp' : s.positionOf userId = some p := by simpa [HrStore.positionOf, hup] using hp
    simpa [HrStore.applicableTo, hpd] using h.fits userId d hd' p hp'

/-! ## The views under a write -/

variable (userId : Nat)

section Views

variable {n : Nat} {s : HrStore}

theorem departmentIdsOf_insert (h : s.userDepartments.Below n) (row : UserDepartment)
    (userId : Nat) :
    { s with userDepartments := s.userDepartments.insert n row }.departmentIdsOf userId =
      s.departmentIdsOf userId ++ if row.userId = userId then [row.departmentId] else [] := by
  by_cases hu : row.userId = userId <;>
    simp [HrStore.departmentIdsOf, Table.select_insert_of_below h, hu]

theorem mem_departmentIdsOf_delete {p : Nat → UserDepartment → Bool} {userId d : Nat}
    (h : d ∈ { s with
      userDepartments := s.userDepartments.deleteMany p }.departmentIdsOf userId) :
    d ∈ s.departmentIdsOf userId ∧ ∃ k r, p k r = false ∧ r.userId = userId ∧
      r.departmentId = d := by
  obtain ⟨x, hx, rfl⟩ := List.mem_map.mp h
  obtain ⟨hold, hp⟩ := Table.mem_select_deleteMany.mp hx
  have hu : x.2.userId = userId := by simpa using (Table.mem_select.mp hold).2
  exact ⟨List.mem_map_of_mem hold, x.1, x.2, hp, hu, rfl⟩

theorem applicableTo_insert (h : s.positionDepartments.Below n) (row : PositionDepartment)
    (positionId : Nat) :
    { s with positionDepartments := s.positionDepartments.insert n row }.applicableTo positionId =
      s.applicableTo positionId ++
        if row.positionId = positionId then [row.departmentId] else [] := by
  by_cases hp : row.positionId = positionId <;>
    simp [HrStore.applicableTo, Table.select_insert_of_below h, hp]

theorem mem_applicableTo_delete {p : Nat → PositionDepartment → Bool} {positionId d : Nat}
    (h : d ∈ s.applicableTo positionId)
    (hp : ∀ k r, r.positionId = positionId → r.departmentId = d → p k r = false) :
    d ∈ { s with
      positionDepartments := s.positionDepartments.deleteMany p }.applicableTo positionId := by
  obtain ⟨x, hx, rfl⟩ := List.mem_map.mp h
  have hpos : x.2.positionId = positionId := by simpa using (Table.mem_select.mp hx).2
  exact List.mem_map_of_mem (Table.mem_select_deleteMany.mpr ⟨hx, hp x.1 x.2 hpos rfl⟩)

theorem positionOf_upsert (row : UserPosition) (other : Nat) :
    { s with userPositions := s.userPositions.insert userId row }.positionOf other =
      if other = userId then row.positionId else s.positionOf other := by
  by_cases hu : other = userId <;> simp [HrStore.positionOf, Table.find?_insert, hu]

theorem positionOf_clear (userId other : Nat) :
    { s with
      userPositions := s.userPositions.update userId fun r =>
        { r with positionId := none } }.positionOf other =
      if other = userId then none else s.positionOf other := by
  by_cases hu : other = userId
  · subst hu
    cases hf : s.userPositions.find? other <;> simp [HrStore.positionOf, hf]
  · simp [HrStore.positionOf, Table.find?_update_ne, hu]

end Views

section Statements

variable {n : Nat} {s : HrStore}

theorem userDepartmentCreate_safe {row : UserDepartment} (h : Assigned n s)
    (hrow : s.Allows row.userId row.departmentId) :
    (userDepartmentCreate row).safe (fun _ n' s' => Assigned n' s' ∧
      ∀ userId d, s.Allows userId d → s'.Allows userId d) n s := by
  apply Txn.safe_create
  intro _
  refine ⟨⟨h.userDepartments.insert_succ row, h.positionDepartments.mono (Nat.le_succ n), ?_⟩,
    fun userId d hd => hd⟩
  intro userId d hd
  rw [departmentIdsOf_insert h.userDepartments] at hd
  rcases List.mem_append.mp hd with hold | hnew
  · exact h.fits userId d hold
  · by_cases hu : row.userId = userId
    · obtain rfl : d = row.departmentId := by simpa [hu] using hnew
      rw [← hu]
      exact hrow
    · simp [hu] at hnew

theorem userDepartmentDeleteMany_safe (which : Nat → Bool) (h : Assigned n s) :
    (userDepartmentDeleteMany userId which).safe (fun _ n' s' => Assigned n' s' ∧
      s'.userPositions = s.userPositions ∧ s'.positionDepartments = s.positionDepartments ∧
      ∀ d ∈ s'.departmentIdsOf userId, which d = false) n s := by
  refine ⟨⟨h.userDepartments.alter _, h.positionDepartments, ?_⟩, rfl, rfl, ?_⟩
  · intro other d hd
    exact h.fits other d (mem_departmentIdsOf_delete hd).1
  · intro d hd
    obtain ⟨-, k, r, hp, hu, rfl⟩ := mem_departmentIdsOf_delete hd
    simpa [hu] using hp

theorem userDepartmentDeleteMany_preserves (which : Nat → Bool) :
    (userDepartmentDeleteMany userId which).Preserves Assigned := fun _ _ h =>
  Txn.wp_mono (userDepartmentDeleteMany_safe userId which h) fun _ _ _ hdone => hdone.1

theorem userPositionUpsert_safe {userId p : Nat} (assignedBy : Nat)
    (hud : s.userDepartments.Below n) (hpd : s.positionDepartments.Below n)
    (hothers : ∀ other, other ≠ userId → ∀ d ∈ s.departmentIdsOf other, s.Allows other d)
    (huser : ∀ d ∈ s.departmentIdsOf userId, d ∈ s.applicableTo p) :
    (userPositionUpsert userId ⟨some p, assignedBy⟩).safe (fun _ => Assigned) n s := by
  refine ⟨hud, hpd, ?_⟩
  intro other d hd q hq
  rw [positionOf_upsert] at hq
  by_cases hu : other = userId
  · subst hu
    obtain rfl : p = q := by simpa using hq
    exact huser d hd
  · exact hothers other hu d hd q (by simpa [hu] using hq)

theorem userPositionClear_preserves : (userPositionClear userId).Preserves Assigned := by
  intro n s h
  refine ⟨h.userDepartments, h.positionDepartments, ?_⟩
  intro other d hd p hp
  rw [positionOf_clear] at hp
  by_cases hu : other = userId
  · simp [hu] at hp
  · exact h.fits other d hd p (by simpa [hu] using hp)

theorem departmentDeleteMany_preserves (ids : List Nat) :
    (departmentDeleteMany ids).Preserves Assigned := by
  apply Txn.preserves_act
  intro n s a c hc h
  split at hc
  · simp only [Except.ok.injEq, Prod.mk.injEq, true_and] at hc
    subst hc
    refine ⟨h.userDepartments.alter _, h.positionDepartments.alter _, ?_⟩
    intro userId d hd p hp
    obtain ⟨hold, k, r, hkeep, -, rfl⟩ := mem_departmentIdsOf_delete hd
    apply mem_applicableTo_delete (h.fits userId r.departmentId hold p hp)
    intro k' r' _ hd'
    rw [hd']
    exact hkeep
  · simp at hc

theorem positionDeleteMany_preserves (ids : List Nat) :
    (positionDeleteMany ids).Preserves Assigned := by
  intro n s h
  refine ⟨h.userDepartments, h.positionDepartments.alter _, ?_⟩
  intro userId d hd p hp
  have hold : s.positionOf userId = some p ∧ p ∉ ids := by
    simp only [HrStore.positionOf, Table.find?_updateMany] at hp ⊢
    cases hf : s.userPositions.find? userId with
    | none => simp [hf] at hp
    | some row =>
        cases hrow : row.positionId with
        | none => simp [hf, hrow] at hp
        | some q =>
            by_cases hq : q ∈ ids
            · simp [hf, hrow, hq] at hp
            · obtain rfl : q = p := by simpa [hf, hrow, hq] using hp
              exact ⟨by simp [hrow], hq⟩
  apply mem_applicableTo_delete (h.fits userId d hd p hold.1)
  intro k r hr _
  simpa [hr] using hold.2

theorem positionDepartmentCreate_preserves (row : PositionDepartment) :
    (positionDepartmentCreate row).Preserves Assigned := by
  apply Txn.preserves_create
  intro n s _ h
  refine ⟨h.userDepartments.mono (Nat.le_succ n), h.positionDepartments.insert_succ row, ?_⟩
  intro userId d hd p hp
  rw [applicableTo_insert h.positionDepartments]
  exact List.mem_append_left _ (h.fits userId d hd p hp)

end Statements

namespace PositionService

variable {n : Nat} {s : HrStore}

theorem mem_holders {id userId : Nat} :
    userId ∈ (s.userPositions.select fun _ r => r.positionId == some id).map (·.1) ↔
      s.positionOf userId = some id := by
  simp only [List.mem_map, Table.mem_select, Prod.exists, exists_and_right, exists_eq_right,
    HrStore.positionOf, Option.bind_eq_some_iff, beq_iff_eq]

theorem affectedUsers_safe (holders departmentIds : List Nat) :
    (affectedUsers holders departmentIds).safe (fun affected n' s' => (n' = n ∧ s' = s) ∧
      (affected = [] → ∀ userId ∈ holders, ∀ d ∈ s.departmentIdsOf userId,
        d ∈ departmentIds)) n s := by
  -- the users looked at so far without a mark are covered
  let I : List Nat → List (List Nat) → Nat → HrStore → Prop := fun rest done n' s' =>
    (n' = n ∧ s' = s) ∧ (done.flatten = [] → ∀ userId ∈ holders, userId ∉ rest →
      ∀ d ∈ s.departmentIdsOf userId, d ∈ departmentIds)
  apply Txn.safe_bind (Txn.wp_mapM I ?_ ⟨⟨rfl, rfl⟩, fun _ userId hu hrest => absurd hu hrest⟩)
  · intro marks n' s' hI
    exact ⟨hI.1, fun hnil userId hu => hI.2 hnil userId hu (by simp)⟩
  · intro userId rest done n' s' hI
    obtain ⟨⟨rfl, rfl⟩, hcovered⟩ := hI
    refine ⟨⟨rfl, rfl⟩, fun hnil other ho hrest d hd => ?_⟩
    rw [List.flatten_append, List.append_eq_nil_iff] at hnil
    by_cases hother : other = userId
    · subst hother
      by_contra hmiss
      have hmark : (s'.departmentIdsOf other).any (fun d => !(decide (d ∈ departmentIds))) = true :=
        List.any_eq_true.mpr ⟨d, hd, by simpa using hmiss⟩
      have hsome : (s'.departmentIdsOf other).isEmpty = false := by
        simpa using List.ne_nil_of_mem hd
      simp [hmark, hsome] at hnil
    · exact hcovered hnil.1 other ho (by simp [hother, hrest]) d hd

structure Regiven (positionId : Nat) (rest : List Nat) (n : Nat) (s : HrStore) : Prop where
  userDepartments : s.userDepartments.Below n
  positionDepartments : s.positionDepartments.Below n
  fits : ∀ userId, ∀ d ∈ s.departmentIdsOf userId, ∀ p, s.positionOf userId = some p →
    d ∈ s.applicableTo p ∨ p = positionId ∧ d ∈ rest

theorem Regiven.create {id d : Nat} {rest : List Nat} (h : Regiven id (d :: rest) n s) :
    (positionDepartmentCreate ⟨id, d⟩).safe (fun _ n' s' => Regiven id rest n' s') n s := by
  apply Txn.safe_create
  intro _
  refine ⟨h.userDepartments.mono (Nat.le_succ n), h.positionDepartments.insert_succ _, ?_⟩
  intro userId e he p hp
  rw [applicableTo_insert h.positionDepartments]
  rcases h.fits userId e he p hp with hold | ⟨rfl, hrest⟩
  · exact Or.inl (List.mem_append_left _ hold)
  · rcases List.mem_cons.mp hrest with rfl | hrest
    · exact Or.inl (List.mem_append_right _ (by simp))
    · exact Or.inr ⟨rfl, hrest⟩

theorem replaceDepartments_safe {id : Nat} (departmentIds : List Nat) (h : Assigned n s)
    (hcovered : ∀ userId, s.positionOf userId = some id → ∀ d ∈ s.departmentIdsOf userId,
      d ∈ departmentIds) :
    (positionDepartmentDeleteMany id >>= fun _ =>
      departmentIds.forM fun departmentId =>
        positionDepartmentCreate ⟨id, departmentId⟩ >>= fun _ => pure ()).safe
      (fun _ => Assigned) n s := by
  have hdeleted : (positionDepartmentDeleteMany id).safe
      (fun _ n' s' => Regiven id departmentIds n' s') n s := by
    refine ⟨h.userDepartments, h.positionDepartments.alter _, ?_⟩
    intro userId d hd p hp
    by_cases hid : p = id
    · subst hid
      exact Or.inr ⟨rfl, hcovered userId hp d hd⟩
    · exact Or.inl (mem_applicableTo_delete (h.fits userId d hd p hp)
        fun k r hr _ => by simpa [hr] using hid)
  apply Txn.safe_bind hdeleted
  intro _ n s hregiven
  apply Txn.wp_mono (Txn.wp_forM (fun rest n s => Regiven id rest n s) ?_ hregiven)
  · intro _ n s hdone
    refine ⟨hdone.userDepartments, hdone.positionDepartments, fun userId d hd p hp => ?_⟩
    simpa using hdone.fits userId d hd p hp
  · intro d rest n s hrest
    exact Txn.safe_bind hrest.create fun _ _ _ hdone => hdone

theorem updateDepartmentsRun_preserves (id : Nat) (departmentIds : List Nat) :
    (updateDepartmentsRun id departmentIds).Preserves Assigned := by
  apply (Txn.preserves_query _).bind
  intro found
  apply (Txn.preserves_orThrow _ _).bind
  intro existing
  apply (Txn.preserves_query _).bind
  intro current
  apply (assertDepartmentsExist_preserves departmentIds current).bind
  intro _ n s h
  apply Txn.safe_bind (R := fun holders n' s' => (n' = n ∧ s' = s) ∧
    ∀ userId, s.positionOf userId = some id → userId ∈ holders)
    ((Txn.wp_query _).mpr ⟨⟨rfl, rfl⟩, fun userId hp => mem_holders.mpr hp⟩)
  rintro holders _ _ ⟨⟨rfl, rfl⟩, hholders⟩
  apply Txn.safe_bind (affectedUsers_safe holders departmentIds)
  rintro affected _ _ ⟨⟨rfl, rfl⟩, hcovered⟩
  apply Txn.safe_bind (Txn.safe_guard (Q := fun _ n' s' => (n' = _ ∧ s' = _) ∧ affected = [])
    fun hempty => ⟨⟨rfl, rfl⟩, by simpa using hempty⟩)
  rintro _ _ _ ⟨⟨rfl, rfl⟩, hnil⟩
  have hreplace := replaceDepartments_safe departmentIds h fun userId hp =>
    hcovered hnil userId (hholders userId hp)
  have hdone := Txn.safe_bind hreplace fun (_ : Unit) n s (h : Assigned n s) =>
    (show (pure (⟨.done, .update, s!"更新了岗位适用部门：{existing.name}"⟩ :
      IdempotentOutcome HrReply) : HrTx _).safe (fun _ n s => Assigned n s) n s from h)
  simpa only [bind_assoc] using hdone

end PositionService

namespace OrgStructureService

variable {n : Nat} {s : HrStore}

theorem replaceDepartments_safe (operatorId : Nat) {userId : Nat} {departmentIds : List Nat}
    (h : Assigned n s) (hallows : ∀ d ∈ departmentIds, s.Allows userId d) :
    (userDepartmentDeleteMany userId (fun _ => true) >>= fun _ =>
      departmentIds.forM fun departmentId =>
        userDepartmentCreate ⟨userId, departmentId, operatorId⟩ >>= fun _ => pure ()).safe
      (fun _ => Assigned) n s := by
  apply Txn.safe_bind (userDepartmentDeleteMany_safe userId _ h)
  intro _ n' s' hdeleted
  obtain ⟨hassigned, hup, hpd, -⟩ := hdeleted
  have hallows' : ∀ d ∈ departmentIds, s'.Allows userId d := by
    intro d hd p hp
    have hp' : s.positionOf userId = some p := by simpa [HrStore.positionOf, hup] using hp
    simpa [HrStore.applicableTo, hpd] using hallows d hd p hp'
  apply Txn.wp_mono (Txn.wp_forM
    (fun rest n s => Assigned n s ∧ ∀ d ∈ rest, s.Allows userId d) ?_ ⟨hassigned, hallows'⟩)
  · intro _ n s hdone
    exact hdone.1
  · intro d rest n s hrest
    apply Txn.safe_bind (userDepartmentCreate_safe hrest.1 (hrest.2 d (by simp)))
    intro _ n' s' hcreated
    exact ⟨hcreated.1, fun e he => hcreated.2 userId e (hrest.2 e (by simp [he]))⟩

theorem assignDepartmentsRun_preserves (operatorId userId : Nat) (departmentIds : List Nat) :
    (assignDepartmentsRun operatorId userId departmentIds).Preserves Assigned := by
  apply (assertActiveDepartments_preserves departmentIds).bind
  intro _ n s h
  have hrest : ∀ n s, Assigned n s → (∀ d ∈ departmentIds, s.Allows userId d) → (do
      userDepartmentDeleteMany userId fun _ => true
      departmentIds.forM fun departmentId => do
        let _ ← userDepartmentCreate ⟨userId, departmentId, operatorId⟩
        pure ()
      bumpUserOrgVersion
      pure (⟨.done, .update, s!"调整了员工 {userId} 的所属部门"⟩ : IdempotentOutcome HrReply)).safe
      (fun _ => Assigned) n s := by
    intro n s h hallows
    have hreplace := replaceDepartments_safe operatorId h hallows
    have hdone := Txn.safe_bind hreplace fun (_ : Unit) n s (h : Assigned n s) =>
      ((bumpUserOrgVersion_preserves looksAtAssignments_assigned).bind fun _ =>
        Txn.preserves_pure (⟨.done, .update, s!"调整了员工 {userId} 的所属部门"⟩ :
          IdempotentOutcome HrReply)) n s h
    simpa only [bind_assoc] using hdone
  apply Txn.safe_bind (R := fun position n' s' => (n' = n ∧ s' = s) ∧
    s.positionOf userId = position) ((Txn.wp_query _).mpr ⟨⟨rfl, rfl⟩, rfl⟩)
  rintro position _ _ ⟨⟨rfl, rfl⟩, hp⟩
  cases position with
  | none => exact hrest _ _ h fun d _ p hpos => by simp [hp] at hpos
  | some positionId =>
      apply Txn.safe_bind (R := fun applicable n' s' => (n' = _ ∧ s' = _) ∧
        HrStore.applicableTo _ positionId = applicable) ((Txn.wp_query _).mpr ⟨⟨rfl, rfl⟩, rfl⟩)
      rintro applicable _ _ ⟨⟨rfl, rfl⟩, rfl⟩
      apply Txn.safe_bind (Txn.safe_guard (Q := fun _ n' s' => (n' = _ ∧ s' = _) ∧
        departmentIds.all (· ∈ HrStore.applicableTo _ positionId) = true)
          fun hall => ⟨⟨rfl, rfl⟩, hall⟩)
      rintro _ _ _ ⟨⟨rfl, rfl⟩, hall⟩
      apply hrest _ _ h
      intro d hd p hpos
      obtain rfl : positionId = p := by simpa [hp] using hpos
      simpa using List.all_eq_true.mp hall d hd

theorem assignPositionRun_preserves (operatorId userId positionId : Nat) :
    (assignPositionRun operatorId userId positionId).Preserves Assigned := by
  apply (Txn.preserves_query _).bind
  intro found
  apply (Txn.preserves_orThrow _ _).bind
  intro position
  apply (Txn.preserves_guard _ _).bind
  intro _ n s h
  have hrest : ∀ n s, Assigned n s → (∀ d ∈ s.departmentIdsOf userId,
      d ∈ s.applicableTo positionId) → (do
      userPositionUpsert userId ⟨some positionId, operatorId⟩
      bumpUserOrgVersion
      pure (⟨.done, .update, s!"调整了员工 {userId} 的岗位"⟩ : IdempotentOutcome HrReply)).safe
      (fun _ => Assigned) n s := by
    intro n s h hfits
    have hupsert := userPositionUpsert_safe operatorId h.userDepartments
      h.positionDepartments (fun other _ d hd => h.fits other d hd) hfits
    exact Txn.safe_bind hupsert fun (_ : Unit) n s (h : Assigned n s) =>
      ((bumpUserOrgVersion_preserves looksAtAssignments_assigned).bind fun _ =>
        Txn.preserves_pure _) n s h
  apply Txn.safe_bind (R := fun departments n' s' => (n' = n ∧ s' = s) ∧
    s.departmentIdsOf userId = departments) ((Txn.wp_query _).mpr ⟨⟨rfl, rfl⟩, rfl⟩)
  rintro departments _ _ ⟨⟨rfl, rfl⟩, hdepartments⟩
  cases departments with
  | nil => exact hrest _ _ h fun d hd => by simp [hdepartments] at hd
  | cons first others =>
      apply Txn.safe_bind (R := fun applicable n' s' => (n' = _ ∧ s' = _) ∧
        HrStore.applicableTo _ positionId = applicable) ((Txn.wp_query _).mpr ⟨⟨rfl, rfl⟩, rfl⟩)
      rintro applicable _ _ ⟨⟨rfl, rfl⟩, rfl⟩
      apply Txn.safe_bind (Txn.safe_guard (Q := fun _ n' s' => (n' = _ ∧ s' = _) ∧
        (first :: others).all (· ∈ HrStore.applicableTo _ positionId) = true)
          fun hall => ⟨⟨rfl, rfl⟩, hall⟩)
      rintro _ _ _ ⟨⟨rfl, rfl⟩, hall⟩
      apply hrest _ _ h
      intro d hd
      rw [hdepartments] at hd
      simpa using List.all_eq_true.mp hall d hd

end OrgStructureService

namespace PositionApplicationService

variable {n : Nat} {s : HrStore}

theorem assertTarget_safe (departmentId positionId : Nat)
    (departmentGone positionGone inapplicable : Failure) :
    (assertTarget departmentId positionId departmentGone positionGone inapplicable).safe
      (fun _ n' s' => (n' = n ∧ s' = s) ∧ departmentId ∈ s.applicableTo positionId) n s := by
  have hchecks : ∀ {α β : Type} {f : HrStore → Option α} {e : Failure} {c : α → Bool}
      {g : α → HrTx β} {Q : β → Nat → HrStore → Prop}, (∀ a, (g a).safe Q n s) →
      (do
        let found ← Txn.query f
        let row ← Txn.orThrow found e
        Txn.guard (c row) e
        g row).safe Q n s := by
    intro α β f e c g Q hg
    apply Txn.safe_bind (R := fun _ n' s' => n' = n ∧ s' = s) ((Txn.wp_query _).mpr ⟨rfl, rfl⟩)
    rintro found _ _ ⟨rfl, rfl⟩
    apply Txn.safe_bind (Txn.safe_orThrow (Q := fun _ n' s' => n' = _ ∧ s' = _)
      fun _ _ => ⟨rfl, rfl⟩)
    rintro row _ _ ⟨rfl, rfl⟩
    apply Txn.safe_bind (Txn.safe_guard (Q := fun _ n' s' => n' = _ ∧ s' = _) fun _ => ⟨rfl, rfl⟩)
    rintro _ _ _ ⟨rfl, rfl⟩
    exact hg row
  apply hchecks
  intro department
  apply hchecks
  intro position
  apply Txn.safe_bind (R := fun applicable n' s' => (n' = n ∧ s' = s) ∧
    s.applicableTo positionId = applicable) ((Txn.wp_query _).mpr ⟨⟨rfl, rfl⟩, rfl⟩)
  rintro applicable _ _ ⟨⟨rfl, rfl⟩, rfl⟩
  apply Txn.safe_bind (Txn.safe_guard (Q := fun _ n' s' => (n' = _ ∧ s' = _) ∧
    decide (departmentId ∈ HrStore.applicableTo _ positionId) = true) fun hin => ⟨⟨rfl, rfl⟩, hin⟩)
  rintro _ _ _ ⟨⟨rfl, rfl⟩, hin⟩
  exact ⟨⟨rfl, rfl⟩, by simpa using hin⟩

theorem moveTo_safe {userId departmentId positionId processorId : Nat} (h : Assigned n s)
    (hin : departmentId ∈ s.applicableTo positionId) :
    (do
      userDepartmentDeleteMany userId fun _ => true
      let _ ← userDepartmentCreate ⟨userId, departmentId, processorId⟩
      userPositionUpsert userId ⟨some positionId, processorId⟩
      bumpUserOrgVersion).safe (fun _ => Assigned) n s := by
  apply Txn.safe_bind (userDepartmentDeleteMany_safe userId _ h)
  rintro _ n₁ s₁ ⟨h₁, -, hpd, hnone⟩
  -- between the two inserts the old position need not fit the new department
  have hcreate : (userDepartmentCreate ⟨userId, departmentId, processorId⟩).safe
      (fun _ n₂ s₂ => (s₂.userDepartments.Below n₂ ∧ s₂.positionDepartments.Below n₂) ∧
        (∀ other, other ≠ userId → ∀ d ∈ s₂.departmentIdsOf other, s₂.Allows other d) ∧
        ∀ d ∈ s₂.departmentIdsOf userId, d ∈ s₂.applicableTo positionId) n₁ s₁ := by
    apply Txn.safe_create
    intro _
    refine ⟨⟨h₁.userDepartments.insert_succ _, h₁.positionDepartments.mono (Nat.le_succ n₁)⟩,
      ?_, ?_⟩
    · intro other hother d hd
      rw [departmentIdsOf_insert h₁.userDepartments] at hd
      have hold : d ∈ s₁.departmentIdsOf other := by simpa [Ne.symm hother] using hd
      exact h₁.fits other d hold
    · intro d hd
      rw [departmentIdsOf_insert h₁.userDepartments] at hd
      rcases List.mem_append.mp hd with hold | hnew
      · simpa using hnone d hold
      · obtain rfl : d = departmentId := by simpa using hnew
        simpa [HrStore.applicableTo, hpd] using hin
  apply Txn.safe_bind hcreate
  rintro _ n₂ s₂ ⟨⟨hud₂, hpd₂⟩, hothers, huser⟩
  apply Txn.safe_bind (userPositionUpsert_safe _ hud₂ hpd₂ hothers huser)
  intro _ n₃ s₃ h₃
  exact bumpUserOrgVersion_preserves looksAtAssignments_assigned n₃ s₃ h₃

theorem apply_preserves (requestId processorId : Nat) :
    (apply requestId processorId).Preserves Assigned := by
  apply (Txn.preserves_query _).bind
  intro found
  apply (Txn.preserves_orThrow _ _).bind
  intro detail
  apply (Txn.preserves_query _).bind
  intro current
  apply (Txn.preserves_guard _ _).bind
  intro _ n s h
  apply Txn.safe_bind (assertTarget_safe _ _ _ _ _)
  rintro _ _ _ ⟨⟨rfl, rfl⟩, hin⟩
  exact moveTo_safe h hin

end PositionApplicationService

end Wbme.Hr

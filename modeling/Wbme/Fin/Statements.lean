import Wbme.Fin.Details
import Wbme.Lib.Rows

/-! # What statements do to projects

Every statement that writes a project or one of its amounts locks the row, writes it by what
it is alone, and never lowers its revision. A permit says of an operation which rows it may
write, at which revisions, and whose revisions it may raise.
-/

namespace Wbme.Fin

open Lib

/-! ## Rows -/

def projectRows : RowFamily FinStore FinLock Nat Project where
  row id s := s.projects.find? id
  lockOf id := some (.project id)
  keyOf id := id

def detailsRows : RowFamily FinStore FinLock (DetailKind × Nat) Detail where
  row k s := (s.details k.1).find? k.2
  lockOf k := some (.detail k.1 k.2)
  keyOf k := k.2

/-- A recorded operation is never changed. -/
def operationRows : RowFamily FinStore FinLock Nat ProjectOperation where
  row id s := s.projectOperations.find? id
  lockOf _ := none
  keyOf id := id

/-- No two projects have one key, deleted or not. -/
def Keyed (s : FinStore) : Prop :=
  ∀ i j p q, s.projects.find? i = some p → s.projects.find? j = some q → p.key = q.key → i = j

/-- The business key is the normal form of the name. -/
def ProjectData.Lawful (u : Unicode) (p : ProjectData) : Prop :=
  p.businessKey = normalizeProjectName u p.name

/-! ## Permits -/

/-- What an operation may do to projects and their amounts. -/
structure Permit where
  /-- The revisions at which it may write a project. -/
  writes : Nat → Nat → Prop
  /-- The projects whose revision it may raise. -/
  raises : Nat → Prop
  /-- Its writes leave a project that is not deleted. -/
  restores : Prop
  /-- The name that it has read for a key. -/
  readName : Option String
  /-- The projects whose amounts it may write. -/
  owners : Nat → Prop
  /-- The amount that it may write. -/
  detail : Option (DetailKind × Nat)

/-- Nothing may be written. -/
def Permit.none : Permit := ⟨fun _ _ => False, fun _ => False, True, .none, fun _ => False, .none⟩

variable {id : Nat}

section Permit

variable (u : Unicode) (w : Permit)

/-- The business key is the normal form of the name, or of the name that was read. -/
def Permit.Named (p : ProjectData) : Prop :=
  p.Lawful u ∨ ∃ n, w.readName = some n ∧ p.businessKey = normalizeProjectName u n

structure Permit.Writes (id : Nat) (p p' : Project) : Prop where
  allowed : w.writes id p.dataRevision
  revision : p.dataRevision ≤ p'.dataRevision
  content : p'.dataRevision = p.dataRevision → p'.toProjectData = p.toProjectData
  raised : p.dataRevision < p'.dataRevision → w.raises id
  restored : w.restores → p'.isLive = true
  keepsName : w.readName ≠ .none → p'.name = p.name
  named : (p'.name = p.name ∧ p'.businessKey = p.businessKey) ∨ w.Named u p'.toProjectData

variable {u w}

theorem Permit.Named.of_same {p p' : ProjectData} (h : w.Named u p) (hname : p'.name = p.name)
    (hkey : p'.businessKey = p.businessKey) : w.Named u p' := by
  unfold Permit.Named ProjectData.Lawful at h ⊢
  rw [hname, hkey]
  exact h

theorem Permit.Writes.trans {p p' p'' : Project} (h : w.Writes u id p p')
    (h' : w.Writes u id p' p'') : w.Writes u id p p'' where
  allowed := h.allowed
  revision := Nat.le_trans h.revision h'.revision
  content heq := by
    have h₁ := h.revision
    have h₂ := h'.revision
    rw [h'.content (by omega), h.content (by omega)]
  raised hlt := by
    by_cases hp : p.dataRevision < p'.dataRevision
    · exact h.raised hp
    · exact h'.raised (by omega)
  restored := h'.restored
  keepsName hread := (h'.keepsName hread).trans (h.keepsName hread)
  named := by
    rcases h'.named with ⟨hname', hkey'⟩ | hnamed
    · rcases h.named with ⟨hname, hkey⟩ | hnamed
      · exact .inl ⟨hname'.trans hname, hkey'.trans hkey⟩
      · exact .inr (hnamed.of_same hname' hkey')
    · exact .inr hnamed

variable (u w)

/-- What may become of a project, and what a new one is like. -/
def projectRule : RowRule Nat Project where
  rel id o o' := o' = o ∨ ∃ p p', o = some p ∧ o' = some p' ∧ w.Writes u id p p'
  born _ o := ∀ p, o = some p → w.readName = .none ∧ p.Lawful u
  refl _ _ := .inl rfl
  trans := by
    rintro id o o' o'' (rfl | ⟨p, p', rfl, rfl, h⟩) (rfl | ⟨q, q', hq, rfl, h'⟩)
    · exact .inl rfl
    · exact .inr ⟨q, q', hq, rfl, h'⟩
    · exact .inr ⟨p, p', rfl, rfl, h⟩
    · cases hq
      exact .inr ⟨p, q', rfl, rfl, h.trans h'⟩
  born_rel := by
    rintro id o o' hborn (rfl | ⟨p, p', rfl, rfl, h⟩) q hq
    · exact hborn q hq
    · cases hq
      obtain ⟨hread, hlawful⟩ := hborn p rfl
      refine ⟨hread, ?_⟩
      rcases h.named with ⟨hname, hkey⟩ | hnew | ⟨n, hn, -⟩
      · rw [ProjectData.Lawful, hname, hkey]
        exact hlawful
      · exact hnew
      · rw [hread] at hn
        cases hn
  absent := by
    rintro id o (rfl | ⟨p, p', hp, -⟩)
    · rfl
    · cases hp

/-- What may become of an amount: it goes, or stays with its project. -/
def detailRule : RowRule (DetailKind × Nat) Detail where
  rel k o o' := o' = o ∨ ((w.detail = some k ∨ ∀ x, o = some x → w.owners x.projectId) ∧
    (o' = none ∨ ∃ x x', o = some x ∧ o' = some x' ∧ x'.projectId = x.projectId))
  born _ o := ∀ x, o = some x → w.owners x.projectId
  refl _ _ := .inl rfl
  trans := by
    rintro k o o' o'' (rfl | ⟨hmay, hstep⟩) (rfl | ⟨hmay', hstep'⟩)
    · exact .inl rfl
    · exact .inr ⟨hmay', hstep'⟩
    · exact .inr ⟨hmay, hstep⟩
    · refine .inr ⟨hmay, ?_⟩
      rcases hstep' with rfl | ⟨x', x'', rfl, rfl, hsame'⟩
      · exact .inl rfl
      · rcases hstep with hnone | ⟨x, y, rfl, hy, hsame⟩
        · cases hnone
        · cases hy
          exact .inr ⟨x, x'', rfl, rfl, hsame'.trans hsame⟩
  born_rel := by
    rintro k o o' hborn (rfl | ⟨-, rfl | ⟨x, x', rfl, rfl, hsame⟩⟩) y hy
    · exact hborn y hy
    · cases hy
    · cases hy
      rw [hsame]
      exact hborn x rfl
  absent := by
    rintro k o (rfl | ⟨-, rfl | ⟨x, x', hx, -⟩⟩)
    · rfl
    · rfl
    · cases hx

end Permit

def operationRule : RowRule Nat ProjectOperation where
  rel _ o o' := o' = o
  born _ _ := True
  refl _ _ := rfl
  trans _ _ _ _ h h' := h'.trans h
  born_rel _ _ _ h _ := h
  absent _ _ h := h

/-! ## The rule -/

/-- A statement under a permit. A key is changed behind the locks on the keys before and after,
and two projects never get one key. -/
structure FinStatement (u : Unicode) (w : Permit) (drawn : List Nat) (l : FinStore → List FinLock)
    (c : FinStore → FinStore → FinStore) : Prop where
  projects : projectRows.Orderly (projectRule u w) drawn l c
  details : detailsRows.Orderly (detailRule w) drawn l c
  operations : operationRows.Orderly operationRule drawn l c
  keys : ∀ v id p', (c v v).projects.find? id = some p' →
    (∃ p, v.projects.find? id = some p ∧ p.key = p'.key) ∨ (keyLock p'.key ∈ l v ∧
      (id ∈ drawn ∨ ∃ p, v.projects.find? id = some p ∧ keyLock p.key ∈ l v))
  keyed : ∀ v, Keyed v → Keyed (c v v)

variable {c : FinStore → FinStore → FinStore} {l : FinStore → List FinLock}

theorem finStatement_of_details {u : Unicode} {w : Permit} {drawn : List Nat}
    (hprojects : ∀ v t, (c v t).projects = t.projects)
    (hoperations : ∀ v t, (c v t).projectOperations = t.projectOperations)
    (hdetails : detailsRows.Orderly (detailRule w) drawn l c) : FinStatement u w drawn l c where
  projects := RowFamily.orderly_of_leaves fun v t k => by
    show (c v t).projects.find? k = t.projects.find? k
    rw [hprojects]
  details := hdetails
  operations := RowFamily.orderly_of_leaves fun v t k => by
    show (c v t).projectOperations.find? k = t.projectOperations.find? k
    rw [hoperations]
  keys v id p' h := by
    rw [hprojects] at h
    exact .inl ⟨p', h, rfl⟩
  keyed v h := by
    unfold Keyed
    rw [hprojects]
    exact h

theorem finStatement_of_leaves {u : Unicode} {w : Permit} {drawn : List Nat}
    (hprojects : ∀ v t, (c v t).projects = t.projects)
    (hoperations : ∀ v t, (c v t).projectOperations = t.projectOperations)
    (hdetails : ∀ v t kind, (c v t).details kind = t.details kind) : FinStatement u w drawn l c :=
  finStatement_of_details hprojects hoperations <| RowFamily.orderly_of_leaves fun v t k => by
    show ((c v t).details k.1).find? k.2 = (t.details k.1).find? k.2
    rw [hdetails]

theorem finStatement_admits (u : Unicode) (w : Permit) :
    Txn.StatementRule.Admits (FinStatement u w) where
  quiet _ _ := finStatement_of_leaves (fun _ _ => rfl) (fun _ _ => rfl) fun _ _ _ => rfl
  mono _ _ _ _ hsub h :=
    { projects := h.projects.mono hsub
      details := h.details.mono hsub
      operations := h.operations.mono hsub
      keys := fun v id p' hp => (h.keys v id p' hp).imp_right fun hk =>
        ⟨hk.1, hk.2.imp_left fun hd => hsub hd⟩
      keyed := h.keyed }

theorem statements_of_quiet {u : Unicode} {w : Permit} {α : Type} {p : FinTx α} (h : p.Quiet)
    (drawn : List Nat) : p.Statements (FinStatement u w) drawn := by
  induction p generalizing drawn with
  | pure a => trivial
  | throw e => trivial
  | stmt l c k ih =>
      have hsame : ∀ v t, c v t = t := h.1
      exact ⟨finStatement_of_leaves (fun v t => by rw [hsame v t]) (fun v t => by rw [hsame v t])
        fun v t _ => by rw [hsame v t], fun v => ih v (h.2 v) drawn⟩
  | fresh k ih => exact fun n => ih n (h n) _

section Projects

variable {u : Unicode} {w : Permit} {drawn : List Nat}

/-- A statement that writes nothing, or one project that it locks, with its keys if these
change, to a key that no other project has. -/
theorem finStatement_update (id : Nat) (f : Project → Project)
    (h : ∀ v, (∀ t, c v t = t) ∨ ∃ p, v.projects.find? id = some p ∧ w.Writes u id p (f p) ∧
      updateLocks id p (f p) ⊆ l v ∧ ((f p).key = p.key ∨ keyTaken v (some id) (f p).key = false) ∧
      ∀ t, c v t = { t with projects := t.projects.update id f }) : FinStatement u w drawn l c where
  projects :=
    { behind := fun v k => by
        rcases h v with hsame | ⟨p, hp, -, hlocks, -, hc⟩
        · exact .inl fun t => by rw [hsame]
        · by_cases hk : k = id
          · subst hk
            exact .inr (.inl ⟨_, rfl, hlocks List.mem_cons_self, by simp [projectRows, hp]⟩)
          · exact .inl fun t => by
              rw [hc]
              exact Table.find?_update_ne _ f hk
      alone := fun v t t' k ht => by
        rcases h v with hsame | ⟨p, hp, -, -, -, hc⟩
        · rw [hsame, hsame, ht]
        · rw [hc, hc]
          show (t.projects.update id f).find? k = (t'.projects.update id f).find? k
          rw [Table.find?_update, Table.find?_update]
          exact congrArg (Option.map _) ht
      changes := fun v k => by
        rcases h v with hsame | ⟨p, hp, hwrites, -, -, hc⟩
        · exact .inl (.inl (by rw [hsame]))
        · rw [hc]
          by_cases hk : k = id
          · subst hk
            exact .inl (.inr ⟨p, f p, hp, Table.find?_update_of_find? hp f, hwrites⟩)
          · exact .inl (.inl (Table.find?_update_ne _ f hk)) }
  details := RowFamily.orderly_of_leaves fun v t k => by
    rcases h v with hsame | ⟨p, -, -, -, -, hc⟩
    · rw [hsame]
    · rw [hc]
      simp [detailsRows]
  operations := RowFamily.orderly_of_leaves fun v t k => by
    rcases h v with hsame | ⟨p, -, -, -, -, hc⟩
    · rw [hsame]
    · rw [hc]
      rfl
  keys v i p' hp' := by
    rcases h v with hsame | ⟨p, hp, -, hlocks, -, hc⟩
    · rw [hsame] at hp'
      exact .inl ⟨p', hp', rfl⟩
    · rw [hc] at hp'
      by_cases hi : i = id
      · subst hi
        rw [Table.find?_update_of_find? hp f] at hp'
        cases hp'
        by_cases hkey : p.key = (f p).key
        · exact .inl ⟨p, hp, hkey⟩
        · have hmem : keyLock p.key ∈ l v ∧ keyLock (f p).key ∈ l v := by
            rw [updateLocks, if_neg hkey] at hlocks
            exact ⟨hlocks (by simp), hlocks (by simp)⟩
          exact .inr ⟨hmem.2, .inr ⟨p, hp, hmem.1⟩⟩
      · rw [Table.find?_update_ne _ f hi] at hp'
        exact .inl ⟨p', hp', rfl⟩
  keyed v hv := by
    rcases h v with hsame | ⟨p, hp, -, -, hfree, hc⟩
    · rw [hsame]
      exact hv
    · rw [hc]
      -- a project apart from the one that is written does not get its key
      have hother : ∀ j q, v.projects.find? j = some q → j ≠ id → (f p).key ≠ q.key := by
        intro j q hq hj hkey
        rcases hfree with hold | hfree
        · exact hj (hv _ _ _ _ hq hp (hkey.symm.trans hold))
        · simp only [keyTaken, beq_eq_false_iff_ne, ne_eq, Bool.not_eq_false,
            List.isEmpty_iff] at hfree
          have hmem : (j, q) ∈ v.projects.select fun i r =>
              r.key == (f p).key && some i != some id :=
            Table.mem_select.mpr ⟨hq, by simp [← hkey, hj]⟩
          rw [hfree] at hmem
          cases hmem
      intro i j a b ha hb hkey
      by_cases hi : i = id <;> by_cases hj : j = id
      · rw [hi, hj]
      · subst hi
        rw [Table.find?_update_of_find? hp f] at ha
        rw [Table.find?_update_ne _ f hj] at hb
        cases ha
        exact absurd hkey (hother j b hb hj)
      · subst hj
        rw [Table.find?_update_of_find? hp f] at hb
        rw [Table.find?_update_ne _ f hi] at ha
        cases hb
        exact absurd hkey.symm (hother i a ha hi)
      · rw [Table.find?_update_ne _ f hi] at ha
        rw [Table.find?_update_ne _ f hj] at hb
        exact hv i j a b ha hb hkey

theorem statements_updateProject {id : Nat} {f : Project → Project} {e : Failure}
    (hf : ∀ p, w.Writes u id p (f p)) :
    (updateProject id f e).Statements (FinStatement u w) drawn := by
  refine Txn.statements_act (finStatement_update id f fun v => ?_)
  cases hp : v.projects.find? id with
  | none => exact .inl fun t => rfl
  | some p =>
      by_cases htaken : (f p).key ≠ p.key ∧ keyTaken v (some id) (f p).key = true
      · exact .inl fun t => by simp [htaken]
      · refine .inr ⟨p, rfl, hf p, List.Subset.refl _, ?_, fun t => by simp [htaken]⟩
        by_cases hkey : (f p).key = p.key
        · exact .inl hkey
        · exact .inr (by simpa [hkey] using htaken)

theorem statements_updateProjectAt {id dataRevision : Nat} {f : Project → Project}
    (hf : ∀ p, p.dataRevision = dataRevision → w.Writes u id p (f p)) :
    (updateProjectAt id dataRevision f).Statements (FinStatement u w) drawn := by
  refine Txn.statements_act (finStatement_update id f fun v => ?_)
  cases hp : (v.projects.find? id).filter fun p => p.dataRevision == dataRevision with
  | none => exact .inl fun t => rfl
  | some p =>
      obtain ⟨hfound, hrevision⟩ := Option.filter_eq_some_iff.mp hp
      by_cases htaken : (f p).key ≠ p.key ∧ keyTaken v (some id) (f p).key = true
      · exact .inl fun t => by simp [htaken]
      · refine .inr ⟨p, hfound, hf p (by simpa using hrevision), List.Subset.refl _, ?_,
          fun t => by simp [htaken]⟩
        by_cases hkey : (f p).key = p.key
        · exact .inl hkey
        · exact .inr (by simpa [hkey] using htaken)

theorem mem_projectIds {v : FinStore} {ids : List Nat} :
    id ∈ projectIds v ids ↔ id ∈ ids ∧ (v.projects.find? id).isSome = true := by
  simp only [projectIds, List.mem_map]
  constructor
  · intro ⟨x, hx, hid⟩
    obtain ⟨hfind, hmem⟩ := Table.mem_select.mp hx
    subst hid
    exact ⟨by simpa using hmem, by simp [hfind]⟩
  · intro ⟨hid, hsome⟩
    obtain ⟨p, hp⟩ := Option.isSome_iff_exists.mp hsome
    exact ⟨(id, p), Table.mem_select.mpr ⟨hp, by simpa using hid⟩, rfl⟩

theorem find?_updateMany_projectIds (v : FinStore) (ids : List Nat) (f : Project → Project)
    (t : Table Project) (id : Nat) :
    (t.updateMany (fun id _ => (projectIds v ids).contains id) f).find? id =
      (t.find? id).map fun p => if id ∈ projectIds v ids then f p else p := by
  rw [Table.find?_updateMany]
  simp

theorem statements_updateProjects {ids : List Nat} {f : Project → Project}
    (hf : ∀ id ∈ ids, ∀ p, w.Writes u id p (f p)) (hkey : ∀ p, (f p).key = p.key) :
    (updateProjects ids f).Statements (FinStatement u w) drawn := by
  have hfind := fun v => find?_updateMany_projectIds v ids f
  refine Txn.statements_exec
    { projects := ⟨fun v k => ?_, fun v t t' k ht => ?_, fun v k => ?_⟩
      details := RowFamily.orderly_of_leaves fun v t k => by simp [detailsRows]
      operations := RowFamily.orderly_of_leaves fun v t k => rfl
      keys := fun v id p' hp' => ?_
      keyed := fun v hv => ?_ }
  · by_cases hk : k ∈ projectIds v ids
    · obtain ⟨-, hsome⟩ := mem_projectIds.mp hk
      exact .inr (.inl ⟨_, rfl, List.mem_map_of_mem hk, Option.isSome_iff_ne_none.mp hsome⟩)
    · exact .inl fun t => (hfind v t.projects k).trans (by simp [hk, projectRows])
  · exact (hfind v _ k).trans (.trans (congrArg (Option.map _) ht) (hfind v _ k).symm)
  · by_cases hk : k ∈ projectIds v ids
    · obtain ⟨hmem, hsome⟩ := mem_projectIds.mp hk
      obtain ⟨p, hp⟩ := Option.isSome_iff_exists.mp hsome
      exact .inl (.inr ⟨p, f p, hp, (hfind v _ k).trans (by simp [hp, hk]), hf k hmem p⟩)
    · exact .inl (.inl ((hfind v _ k).trans (by simp [hk, projectRows])))
  · rw [hfind, Option.map_eq_some_iff] at hp'
    obtain ⟨p, hp, rfl⟩ := hp'
    refine .inl ⟨p, hp, ?_⟩
    split
    · exact (hkey p).symm
    · rfl
  · have hrow : ∀ i a, (v.projects.updateMany
        (fun id _ => (projectIds v ids).contains id) f).find? i = some a →
        ∃ p, v.projects.find? i = some p ∧ a.key = p.key := by
      intro i a ha
      rw [hfind, Option.map_eq_some_iff] at ha
      obtain ⟨p, hp, rfl⟩ := ha
      refine ⟨p, hp, ?_⟩
      split
      · exact hkey p
      · rfl
    intro i j a b ha hb heq
    obtain ⟨p, hp, hap⟩ := hrow i a ha
    obtain ⟨q, hq, hbq⟩ := hrow j b hb
    exact hv i j p q hp hq (hap.symm.trans (heq.trans hbq))

theorem Keyed.insert {s : FinStore} (h : Keyed s) {row : Project}
    (hfree : keyTaken s none row.key = false) (n : Nat) :
    Keyed { s with projects := s.projects.insert n row } := by
  have hother : ∀ j q, s.projects.find? j = some q → row.key ≠ q.key := by
    intro j q hq hkey
    simp only [keyTaken, beq_eq_false_iff_ne, ne_eq, Bool.not_eq_false,
      List.isEmpty_iff] at hfree
    have hmem : (j, q) ∈ s.projects.select fun i r => r.key == row.key && some i != none :=
      Table.mem_select.mpr ⟨hq, by simp [hkey]⟩
    rw [hfree] at hmem
    cases hmem
  intro i j a b ha hb hkey
  replace ha : (s.projects.insert n row).find? i = some a := ha
  replace hb : (s.projects.insert n row).find? j = some b := hb
  rw [Table.find?_insert] at ha hb
  split at ha <;> split at hb
  · rename_i hi hj
    rw [hi, hj]
  · cases ha
    exact absurd hkey (hother j b hb)
  · cases hb
    exact absurd hkey.symm (hother i a ha)
  · exact h i j a b ha hb hkey

theorem finStatement_insert {n : Nat} {row : Project} (hn : n ∈ drawn) (hread : w.readName = .none)
    (hrow : row.Lawful u)
    (h : ∀ v, (∀ t, c v t = t) ∨ (keyLock row.key ∈ l v ∧ keyTaken v none row.key = false ∧
      ∀ t, c v t = { t with projects := t.projects.insert n row })) : FinStatement u w drawn l c where
  projects := RowFamily.orderly_of_insert n row hn
    (fun p hp => by cases hp; exact ⟨hread, hrow⟩) fun v => by
      rcases h v with hc | ⟨-, -, hc⟩
      · exact .inl fun t k => by rw [hc]
      · refine .inr fun t => ?_
        rw [hc]
        exact ⟨Table.find?_insert_self _ _ _, fun k hk => Table.find?_insert_ne _ _ hk⟩
  details := RowFamily.orderly_of_leaves fun v t k => by
    rcases h v with hc | ⟨-, -, hc⟩ <;> rw [hc]
    simp [detailsRows]
  operations := RowFamily.orderly_of_leaves fun v t k => by
    rcases h v with hc | ⟨-, -, hc⟩ <;> rw [hc]
    rfl
  keys v id p' hp' := by
    rcases h v with hc | ⟨hlock, -, hc⟩
    · rw [hc] at hp'
      exact .inl ⟨p', hp', rfl⟩
    · rw [hc] at hp'
      replace hp' : (v.projects.insert n row).find? id = some p' := hp'
      by_cases hid : id = n
      · rw [hid, Table.find?_insert_self] at hp'
        cases hp'
        exact .inr ⟨hlock, .inl (hid ▸ hn)⟩
      · exact .inl ⟨p', (Table.find?_insert_ne _ _ hid).symm.trans hp', rfl⟩
  keyed v hv := by
    rcases h v with hc | ⟨-, hfree, hc⟩
    · rw [hc]
      exact hv
    · rw [hc]
      exact hv.insert hfree n

theorem statements_createProject {row : Project} {e : Failure} (hread : w.readName = none)
    (hrow : row.Lawful u) : (createProject row e).Statements (FinStatement u w) drawn := by
  refine Txn.statements_create fun n =>
    finStatement_insert List.mem_cons_self hread hrow fun v => ?_
  cases htaken : keyTaken v none row.key with
  | true => exact .inl fun t => by simp [Txn.firstViolated]
  | false => exact .inr ⟨List.mem_singleton_self _, rfl, fun t => by simp [Txn.firstViolated]⟩

end Projects

section Details

variable {u : Unicode} {w : Permit} {drawn : List Nat}

theorem detailsRows_withDetails (t : FinStore) (kind : DetailKind) (table : Table Detail)
    (k : DetailKind × Nat) : detailsRows.row k (t.withDetails kind table) =
      if k.1 = kind then table.find? k.2 else detailsRows.row k t := by
  show ((t.withDetails kind table).details k.1).find? k.2 = _
  rw [FinStore.details_withDetails]
  split <;> rfl

@[simp] theorem FinStore.projectOperations_withDetails (s : FinStore) (kind : DetailKind)
    (t : Table Detail) : (s.withDetails kind t).projectOperations = s.projectOperations := by
  cases kind <;> rfl

/-- A statement that rewrites or drops the amounts of a kind it has found, each behind its
lock. -/
theorem finStatement_alter (kind : DetailKind) (g : Detail → Option Detail)
    (hg : ∀ x x', g x = some x' → x'.projectId = x.projectId)
    (h : ∀ v, (∀ t, c v t = t) ∨ ∃ ids : List Nat,
      (∀ id ∈ ids, .detail kind id ∈ l v ∧ (v.details kind).find? id ≠ none ∧
        (w.detail = some (kind, id) ∨
          ∀ x, (v.details kind).find? id = some x → w.owners x.projectId)) ∧
      ∀ t, c v t = t.withDetails kind
        ((t.details kind).alter fun id x => if id ∈ ids then g x else some x)) :
    FinStatement u w drawn l c := by
  have hrow : ∀ (t : FinStore) (ids : List Nat) k, detailsRows.row k (t.withDetails kind
      ((t.details kind).alter fun id x => if id ∈ ids then g x else some x)) =
      (detailsRows.row k t).bind fun x => if k.1 = kind ∧ k.2 ∈ ids then g x else some x := by
    intro t ids k
    rw [detailsRows_withDetails, Table.find?_alter]
    by_cases hk : k.1 = kind
    · rw [if_pos hk, ← hk]
      simp [detailsRows]
    · simp [hk]
  refine finStatement_of_details (fun v t => ?_) (fun v t => ?_)
    ⟨fun v k => ?_, fun v t t' k ht => ?_, fun v k => ?_⟩
  · rcases h v with hc | ⟨ids, -, hc⟩ <;> simp [hc]
  · rcases h v with hc | ⟨ids, -, hc⟩ <;> simp [hc]
  · rcases h v with hc | ⟨ids, hids, hc⟩
    · exact .inl fun t => by rw [hc]
    · by_cases hk : k.1 = kind ∧ k.2 ∈ ids
      · obtain ⟨hlock, hsome, -⟩ := hids k.2 hk.2
        rw [← hk.1] at hlock hsome
        exact .inr (.inl ⟨_, rfl, hlock, hsome⟩)
      · exact .inl fun t => by rw [hc, hrow]; simp [hk]
  · rcases h v with hc | ⟨ids, -, hc⟩
    · rw [hc, hc, ht]
    · rw [hc, hc, hrow, hrow, ht]
  · refine .inl ?_
    rcases h v with hc | ⟨ids, hids, hc⟩
    · exact .inl (by rw [hc])
    · rw [hc, hrow]
      by_cases hk : k.1 = kind ∧ k.2 ∈ ids
      · have hk' : k = (kind, k.2) := Prod.ext hk.1 rfl
        cases hx : detailsRows.row k v with
        | none => exact .inl rfl
        | some x =>
            refine .inr ⟨?_, ?_⟩
            · rcases (hids k.2 hk.2).2.2 with hnamed | howner
              · exact .inl (hk' ▸ hnamed)
              · refine .inr fun y hy => howner y ?_
                rw [← hy, ← hx, ← hk.1]
                rfl
            · simp only [hk, and_self, if_true, Option.bind_some]
              cases hgx : g x with
              | none => exact .inl rfl
              | some x' => exact .inr ⟨x, x', rfl, rfl, hg x x' hgx⟩
      · exact .inl (by simp [hk])

variable {kind : DetailKind} {item : DetailItem}

theorem statements_updateDetail (hdetail : w.detail = some (kind, id)) :
    (updateDetail kind id item).Statements (FinStatement u w) drawn := by
  refine Txn.statements_act (finStatement_alter kind
    (fun d => some { d with toDetailItem := item }) (fun x x' hx => ?_) fun v => ?_)
  · cases hx
    rfl
  · cases hfind : (v.details kind).find? id with
    | none => exact .inl fun t => rfl
    | some x =>
        refine .inr ⟨[id], fun i hi => ?_, fun t => ?_⟩
        · obtain rfl := List.mem_singleton.mp hi
          exact ⟨by simp, by simp [hfind], .inl hdetail⟩
        · simp only [List.mem_singleton, Table.update]
          congr 2
          funext i y
          split <;> rfl

theorem statements_deleteDetail {kind : DetailKind} {id : Nat}
    (hdetail : w.detail = some (kind, id)) :
    (deleteDetail kind id).Statements (FinStatement u w) drawn := by
  refine Txn.statements_act (finStatement_alter kind (fun _ => none)
    (fun x x' hx => nomatch hx) fun v => ?_)
  cases hfind : (v.details kind).find? id with
  | none => exact .inl fun t => rfl
  | some x =>
      refine .inr ⟨[id], fun i hi => ?_, fun t => ?_⟩
      · obtain rfl := List.mem_singleton.mp hi
        exact ⟨by simp, by simp [hfind], .inl hdetail⟩
      · simp [Table.deleteMany]

theorem statements_createDetail {projectId : Nat} (howner : w.owners projectId) :
    (createDetail kind projectId item).Statements (FinStatement u w) drawn := by
  refine Txn.statements_create fun n => ?_
  have hput : ∀ t : FinStore, detailsRows.row (kind, n)
      (t.withDetails kind ((t.details kind).insert n ⟨item, projectId⟩)) =
        some ⟨item, projectId⟩ ∧ ∀ k, k ≠ (kind, n) → detailsRows.row k
      (t.withDetails kind ((t.details kind).insert n ⟨item, projectId⟩)) = detailsRows.row k t := by
    intro t
    refine ⟨by simp [detailsRows_withDetails], fun k hk => ?_⟩
    rw [detailsRows_withDetails]
    split
    · rename_i hkind
      rw [Table.find?_insert_ne _ _ fun hn => hk (Prod.ext hkind hn), ← hkind]
      rfl
    · rfl
  refine finStatement_of_details (fun v t => by split <;> simp) (fun v t => by split <;> simp)
    (RowFamily.orderly_of_insert (kind, n) ⟨item, projectId⟩ List.mem_cons_self
      (fun x hx => ?_) fun v => ?_)
  · cases hx
    exact howner
  · split
    · exact .inr hput
    · exact .inl fun t k => rfl

end Details

section Operations

variable {u : Unicode} {w : Permit}

theorem statements_writeProjectOperation (operation : ProjectOperation) :
    (writeProjectOperation operation).Statements (FinStatement u w) [] := by
  refine (Txn.statements_create fun n => ?_).bind (finStatement_admits u w) fun _ =>
    Txn.statements_pure ()
  exact
    { projects := RowFamily.orderly_of_leaves fun _ _ _ => rfl
      details := RowFamily.orderly_of_leaves fun _ _ _ => by simp [detailsRows, Txn.firstViolated]
      operations := RowFamily.orderly_of_insert n operation List.mem_cons_self trivial
        fun v => .inr fun t => ⟨Table.find?_insert_self _ _ _, fun k hk =>
          Table.find?_insert_ne _ _ hk⟩
      keys := fun v id p' hp' => .inl ⟨p', hp', rfl⟩
      keyed := fun v hv => hv }

end Operations

end Wbme.Fin

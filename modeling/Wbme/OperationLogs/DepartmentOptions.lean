import Wbme.Hr.DepartmentClosure

/-! # The departments to filter operation logs by

The view of departments has no parents. They are found in the closure: the number of ancestors of
a department is its depth, and its parent is the ancestor with a depth one smaller.
-/

namespace Wbme.OperationLogs

open Lib Hr

structure DepartmentOption where
  id : Nat
  name : String
  parentId : Option Nat
  status : OrgStatus

/-- `depth`: how many ancestors a department has, itself among them. -/
def depthOf (closure : List (Nat × Nat)) (id : Nat) : Nat := closure.countP (·.2 = id)

/-- `parent`: the ancestors one step less deep. -/
def parentsOf (closure : List (Nat × Nat)) (id : Nat) : List Nat :=
  (closure.filter fun row => row.2 = id ∧ 0 < depthOf closure row.1 ∧
    depthOf closure row.1 + 1 = depthOf closure id).map (·.1)

def optionRows (closure : List (Nat × Nat)) (v : Nat × Department) : List DepartmentOption :=
  if depthOf closure v.1 = 0 then []
  else match parentsOf closure v.1 with
    | [] => [⟨v.1, v.2.name, none, v.2.status⟩]
    | parents => parents.map fun parent => ⟨v.1, v.2.name, some parent, v.2.status⟩

structure Caller where
  dataScope : Option DataScope
  userId : Option Nat

/-- No list: the scope does not restrict. -/
def visibleDepartmentIds (s : HrStore) (closure : List (Nat × Nat)) (caller : Caller) :
    Option (List Nat) :=
  if caller.dataScope ≠ some .department then none
  else match caller.userId with
    | none => some []
    | some userId =>
        let org := DepartmentClosureService.userOrg s userId
        some (((closure.filter fun row => org.contains row.2).map (·.1) ++
          (closure.filter fun row => org.contains row.1).map (·.2)).dedup)

def departmentOptions (rounds : Nat) (s : HrStore) (caller : Caller) :
    Option (List DepartmentOption) :=
  (departmentClosure s.departments rounds).map fun closure =>
    let scopedIds := visibleDepartmentIds s closure caller
    (s.departments.rows.filter fun v => scopedIds.all (·.contains v.1)).flatMap (optionRows closure)

/-! ## What the options should be -/

structure Forest (departments : Table Department) : Prop where
  parents : ∀ d row p, departments.find? d = some row → row.parentId = some p →
    (departments.find? p).isSome = true
  acyclic : ∀ d, ¬ Relation.TransGen (Child departments) d d

/-- In department scope: above or below a department of the caller. -/
def Visible (s : HrStore) (caller : Caller) (d : Nat) : Prop :=
  caller.dataScope = some .department → ∃ userId a, caller.userId = some userId ∧
    DepartmentClosureService.BelongsTo s userId a ∧
    (Reaches s.departments a d ∨ Reaches s.departments d a)

structure OptionsLaw (s : HrStore) (caller : Caller) (options : List DepartmentOption) : Prop where
  once : (options.map (·.id)).Nodup
  visible : ∀ d, d ∈ options.map (·.id) ↔
    (s.departments.find? d).isSome = true ∧ Visible s caller d
  real : ∀ o ∈ options, ∃ row, s.departments.find? o.id = some row ∧ o.name = row.name ∧
    o.status = row.status ∧ o.parentId = row.parentId
  closed : ∀ o ∈ options, ∀ p, o.parentId = some p → p ∈ options.map (·.id)

section Depths

variable {departments : Table Department} {closure : List (Nat × Nat)} {a d p : Nat}

theorem child_unique (h : Child departments a d) (h' : Child departments p d) : a = p := by
  obtain ⟨row, hrow, ha⟩ := h
  obtain ⟨row', hrow', hp⟩ := h'
  rw [hrow] at hrow'
  cases hrow'
  exact Option.some.inj (ha.symm.trans hp)

theorem reaches_child (hchild : Child departments p d) (h : Reaches departments a d) :
    a = d ∨ Reaches departments a p := by
  rcases Relation.ReflTransGen.cases_tail h.2 with heq | ⟨c, hc, hcd⟩
  · exact .inl heq.symm
  · rw [child_unique hcd hchild] at hc
    exact .inr ⟨h.1, hc⟩

theorem reaches_isSome (h : Reaches departments a d) : (departments.find? d).isSome = true := by
  rcases Relation.ReflTransGen.cases_tail h.2 with heq | ⟨c, -, row, hrow, -⟩
  · rw [heq]
    exact h.1
  · rw [hrow]
    rfl

variable (hforest : Forest departments) (hnodup : closure.Nodup)
  (hmem : ∀ a d, (a, d) ∈ closure ↔ Reaches departments a d)

include hmem in
theorem depth_pos (h : (departments.find? d).isSome = true) : 0 < depthOf closure d :=
  List.countP_pos_iff.mpr ⟨(d, d), (hmem d d).mpr ⟨h, .refl⟩, by simp⟩

include hforest hnodup hmem in
theorem depth_child (hchild : Child departments p d) :
    depthOf closure d = depthOf closure p + 1 := by
  obtain ⟨row, hrow, hparent⟩ := hchild
  have hsome : (departments.find? d).isSome = true := by rw [hrow]; rfl
  have hnew : (d, d) ∉ (closure.filter (·.2 = p)).map fun row => (row.1, d) := by
    intro hin
    obtain ⟨⟨a, b⟩, hab, heq⟩ := List.mem_map.mp hin
    obtain ⟨hab, hb⟩ := List.mem_filter.mp hab
    have hreach := (hmem a b).mp hab
    have hb : b = p := of_decide_eq_true hb
    have ha : a = d := (Prod.mk.inj heq).1
    rw [hb, ha] at hreach
    exact hforest.acyclic d (.tail' hreach.2 ⟨row, hrow, hparent⟩)
  have hperm : (closure.filter (·.2 = d)).Perm
      ((d, d) :: (closure.filter (·.2 = p)).map fun row => (row.1, d)) := by
    apply (List.perm_ext_iff_of_nodup (hnodup.filter _) ?_).mpr
    · intro row'
      obtain ⟨a, b⟩ := row'
      simp only [List.mem_filter, List.mem_cons, List.mem_map, Prod.mk.injEq, Prod.exists, hmem,
        decide_eq_true_eq]
      constructor
      · intro h
        obtain ⟨hreach, hb⟩ := h
        subst hb
        rcases reaches_child ⟨row, hrow, hparent⟩ hreach with rfl | hp
        · exact .inl ⟨rfl, rfl⟩
        · exact .inr ⟨a, p, ⟨hp, rfl⟩, rfl, rfl⟩
      · intro h
        rcases h with ⟨rfl, rfl⟩ | ⟨a', b', ⟨hp, rfl⟩, rfl, rfl⟩
        · exact ⟨⟨hsome, .refl⟩, rfl⟩
        · exact ⟨⟨hp.1, hp.2.tail ⟨row, hrow, hparent⟩⟩, rfl⟩
    · refine List.nodup_cons.mpr ⟨hnew, (hnodup.filter _).map_on ?_⟩
      intro x hx y hy heq
      simp only [List.mem_filter, decide_eq_true_eq] at hx hy
      exact Prod.ext (Prod.mk.inj heq).1 (hx.2.trans hy.2.symm)
  rw [depthOf, List.countP_eq_length_filter, hperm.length_eq, List.length_cons, List.length_map,
    ← List.countP_eq_length_filter]
  rfl

include hforest hnodup hmem in
theorem depth_lt (h : Relation.TransGen (Child departments) a d) :
    depthOf closure a < depthOf closure d := by
  induction h with
  | single h =>
      rw [depth_child hforest hnodup hmem h]
      exact Nat.lt_succ_self _
  | tail _ h ih =>
      rw [depth_child hforest hnodup hmem h]
      omega

include hforest hnodup hmem in
theorem mem_parentsOf : a ∈ parentsOf closure d ↔
    (departments.find? a).isSome = true ∧ Child departments a d := by
  simp only [parentsOf, List.mem_map, List.mem_filter, Prod.exists, decide_eq_true_eq, hmem]
  constructor
  · intro ⟨a', d', ⟨hreach, hd, _, hdepth⟩, ha⟩
    subst hd ha
    refine ⟨hreach.1, ?_⟩
    rcases Relation.ReflTransGen.cases_tail hreach.2 with heq | ⟨c, hc, hcd⟩
    · rw [heq] at hdepth
      omega
    · rw [depth_child hforest hnodup hmem hcd] at hdepth
      rcases Relation.reflTransGen_iff_eq_or_transGen.mp hc with heq | hlt
      · rwa [heq] at hcd
      · have := depth_lt hforest hnodup hmem hlt
        omega
  · intro ⟨hsome, hchild⟩
    exact ⟨a, d, ⟨⟨hsome, .single hchild⟩, rfl, depth_pos hmem hsome,
      (depth_child hforest hnodup hmem hchild).symm⟩, rfl⟩

include hforest hnodup hmem in
theorem optionRows_eq {v : Nat × Department} (hv : departments.find? v.1 = some v.2) :
    optionRows closure v = [⟨v.1, v.2.name, v.2.parentId, v.2.status⟩] := by
  have hpos := depth_pos hmem (d := v.1) (by rw [hv]; rfl)
  have hnd : (parentsOf closure v.1).Nodup := by
    refine (hnodup.filter _).map_on ?_
    intro x hx y hy heq
    simp only [List.mem_filter, decide_eq_true_eq] at hx hy
    exact Prod.ext heq (hx.2.1.trans hy.2.1.symm)
  have hperm : (parentsOf closure v.1).Perm v.2.parentId.toList := by
    apply (List.perm_ext_iff_of_nodup hnd (by cases v.2.parentId <;> simp)).mpr
    intro a
    rw [mem_parentsOf hforest hnodup hmem, Option.mem_toList]
    constructor
    · intro ⟨_, row, hrow, hparent⟩
      rw [hv] at hrow
      cases hrow
      exact hparent
    · intro hparent
      exact ⟨hforest.parents _ _ _ hv hparent, v.2, hv, hparent⟩
  unfold optionRows
  rw [if_neg (by omega)]
  cases hparent : v.2.parentId with
  | none =>
      rw [hparent] at hperm
      rw [hperm.eq_nil]
  | some p =>
      rw [hparent] at hperm
      rw [List.perm_singleton.mp hperm]
      rfl

end Depths

/-! ## The options -/

theorem mem_visibleDepartmentIds {s : HrStore} {closure : List (Nat × Nat)}
    (hmem : ∀ a d, (a, d) ∈ closure ↔ Reaches s.departments a d) (caller : Caller) (d : Nat) :
    (visibleDepartmentIds s closure caller).all (·.contains d) = true ↔ Visible s caller d := by
  unfold visibleDepartmentIds Visible
  by_cases hscope : caller.dataScope = some .department
  · rw [if_neg (not_not_intro hscope)]
    cases huser : caller.userId with
    | none => simp [hscope]
    | some userId =>
        have horg : ∀ {a e}, Reaches s.departments a e →
            (a ∈ DepartmentClosureService.userOrg s userId ↔
              DepartmentClosureService.BelongsTo s userId a) := by
          intro a e hreach
          rw [DepartmentClosureService.mem_userOrg]
          exact and_iff_left hreach.1
        simp only [hscope, forall_const, Option.all_some, List.contains_iff_mem, List.mem_dedup,
          List.mem_append, List.mem_map, List.mem_filter, Prod.exists, hmem, Option.some.injEq]
        constructor
        · intro h
          rcases h with ⟨a, b, ⟨hreach, horgB⟩, rfl⟩ | ⟨a, b, ⟨hreach, horgA⟩, rfl⟩
          · exact ⟨userId, b, rfl, (DepartmentClosureService.mem_userOrg.mp horgB).1, .inr hreach⟩
          · exact ⟨userId, a, rfl, (DepartmentClosureService.mem_userOrg.mp horgA).1, .inl hreach⟩
        · intro ⟨user, a, huser', hbelongs, hreach⟩
          subst huser'
          rcases hreach with hreach | hreach
          · exact .inr ⟨a, d, ⟨hreach, (horg hreach).mpr hbelongs⟩, rfl⟩
          · refine .inl ⟨d, a, ⟨hreach, ?_⟩, rfl⟩
            refine DepartmentClosureService.mem_userOrg.mpr ⟨hbelongs, ?_⟩
            exact reaches_isSome hreach
  · rw [if_pos hscope]
    simp [hscope]

theorem Visible.parent {s : HrStore} {caller : Caller} {d p : Nat} (h : Visible s caller d)
    (hsome : (s.departments.find? p).isSome = true) (hchild : Child s.departments p d) :
    Visible s caller p := by
  intro hscope
  obtain ⟨userId, a, huser, hbelongs, hreach⟩ := h hscope
  refine ⟨userId, a, huser, hbelongs, ?_⟩
  rcases hreach with hdown | hup
  · rcases reaches_child hchild hdown with heq | hp
    · subst heq
      exact .inr ⟨hsome, .single hchild⟩
    · exact .inl hp
  · exact .inr ⟨hsome, hup.2.head hchild⟩

/-- Over a forest of departments the options are the visible ones, each once, under their
parents. -/
theorem departmentOptions_spec (s : HrStore) (hforest : Forest s.departments) (caller : Caller) :
    ∃ enough, ∀ rounds, enough ≤ rounds → ∃ options,
      departmentOptions rounds s caller = some options ∧ OptionsLaw s caller options := by
  refine ⟨s.departments.rows.length + 1, fun rounds hrounds => ?_⟩
  obtain ⟨closure, hclosure, hnodup, hmem⟩ := departmentClosure_spec s.departments hrounds
  have hfind : ∀ v ∈ s.departments.rows, s.departments.find? v.1 = some v.2 :=
    fun v hv => Table.find?_eq_some_iff.mpr hv
  have hrows : departmentOptions rounds s caller = some ((s.departments.rows.filter fun v =>
      (visibleDepartmentIds s closure caller).all (·.contains v.1)).map fun v =>
        ⟨v.1, v.2.name, v.2.parentId, v.2.status⟩) := by
    rw [departmentOptions, hclosure, Option.map_some, List.map_eq_flatMap]
    congr 1
    apply List.flatMap_congr
    intro v hv
    exact optionRows_eq hforest hnodup hmem (hfind v (List.mem_of_mem_filter hv))
  refine ⟨_, hrows, ?_⟩
  have hids : ∀ d, d ∈ (((s.departments.rows.filter fun v =>
      (visibleDepartmentIds s closure caller).all (·.contains v.1)).map fun v =>
        (⟨v.1, v.2.name, v.2.parentId, v.2.status⟩ : DepartmentOption)).map (·.id)) ↔
      (s.departments.find? d).isSome = true ∧ Visible s caller d := by
    intro d
    rw [List.map_map, List.mem_map]
    constructor
    · intro ⟨v, hv, hd⟩
      obtain ⟨hrow, hvisible⟩ := List.mem_filter.mp hv
      subst hd
      exact ⟨Option.isSome_iff_exists.mpr ⟨v.2, hfind v hrow⟩,
        (mem_visibleDepartmentIds hmem caller _).mp hvisible⟩
    · intro ⟨hsome, hvisible⟩
      obtain ⟨row, hrow⟩ := Option.isSome_iff_exists.mp hsome
      exact ⟨(d, row), List.mem_filter.mpr ⟨Table.find?_eq_some_iff.mp hrow,
        (mem_visibleDepartmentIds hmem caller _).mpr hvisible⟩, rfl⟩
  refine ⟨?_, hids, ?_, ?_⟩
  · rw [List.map_map]
    exact List.pairwise_map.mpr ((s.departments.sorted.filter _).imp fun h => Nat.ne_of_lt h)
  · intro o ho
    obtain ⟨v, hv, rfl⟩ := List.mem_map.mp ho
    exact ⟨v.2, hfind v (List.mem_of_mem_filter hv), rfl, rfl, rfl⟩
  · intro o ho p hp
    obtain ⟨v, hv, rfl⟩ := List.mem_map.mp ho
    obtain ⟨hrow, hvisible⟩ := List.mem_filter.mp hv
    have hsome := hforest.parents _ _ _ (hfind v hrow) hp
    exact (hids p).mpr ⟨hsome, Visible.parent
      ((mem_visibleDepartmentIds hmem caller _).mp hvisible) hsome ⟨v.2, hfind v hrow, hp⟩⟩

def twoDepartments : HrStore :=
  { HrStore.empty with
    departments := ⟨[(1, ⟨none, "总部", .active⟩), (2, ⟨some 1, "财务", .active⟩)], by decide⟩ }

theorem forest_twoDepartments : Forest twoDepartments.departments := by
  have hrows : ∀ d row, twoDepartments.departments.find? d = some row →
      d = 1 ∧ row.parentId = none ∨ d = 2 ∧ row.parentId = some 1 := by
    intro d row hrow
    have hmem : (d, row) ∈ [(1, (⟨none, "总部", .active⟩ : Department)),
        (2, ⟨some 1, "财务", .active⟩)] := Table.find?_eq_some_iff.mp hrow
    simp only [List.mem_cons, Prod.mk.injEq, List.not_mem_nil, or_false] at hmem
    rcases hmem with ⟨rfl, rfl⟩ | ⟨rfl, rfl⟩
    · exact .inl ⟨rfl, rfl⟩
    · exact .inr ⟨rfl, rfl⟩
  constructor
  · intro d row p hrow hparent
    rcases hrows d row hrow with ⟨-, hnone⟩ | ⟨-, hone⟩
    · rw [hnone] at hparent
      cases hparent
    · rw [hone] at hparent
      cases hparent
      rfl
  · have hlt : ∀ {c d}, Relation.TransGen (Child twoDepartments.departments) c d →
        c = 1 ∧ d = 2 := by
      intro c d h
      induction h with
      | single h =>
          obtain ⟨row, hrow, hparent⟩ := h
          rcases hrows _ row hrow with ⟨-, hnone⟩ | ⟨hd, hone⟩
          · rw [hnone] at hparent
            cases hparent
          · rw [hone] at hparent
            cases hparent
            exact ⟨rfl, hd⟩
      | tail _ h ih =>
          obtain ⟨row, hrow, hparent⟩ := h
          rcases hrows _ row hrow with ⟨-, hnone⟩ | ⟨hd, -⟩
          · rw [hnone] at hparent
            cases hparent
          · exact ⟨ih.1, hd⟩
    intro d h
    have := hlt h
    omega

theorem departmentOptions_spec_two : ∃ enough, ∀ rounds, enough ≤ rounds → ∃ options,
    departmentOptions rounds twoDepartments ⟨some .department, some 1⟩ = some options ∧
      OptionsLaw twoDepartments ⟨some .department, some 1⟩ options :=
  departmentOptions_spec twoDepartments forest_twoDepartments ⟨some .department, some 1⟩

end Wbme.OperationLogs

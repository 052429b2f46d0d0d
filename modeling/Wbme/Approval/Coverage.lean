import Wbme.Approval.Scope

/-! # Covered requests

An approver in department scope meets a request twice: in the lists, where a predicate of
the database selects the requests one of whose snapshots is non-empty and within the closure,
and in detail and processing, where the departments of all snapshots are checked together.
The two agree on a request unless its objects are mixed. A snapshot without departments
contributes nothing to the check.
-/

namespace Wbme.Approval

/-! ## The predicate of the database -/

def jsonbElements (snapshot : Json) : List Json :=
  match snapshot with
  | .arr xs => xs
  | other => [other]

/-- `(el->>'id')::int`, which is NULL unless the element is an object with a number there. -/
def elementId (element : Json) : Option Int :=
  match element with
  | .obj fields =>
      match Json.field? fields "id" with
      | some (.num n) => some n
      | _ => none
  | _ => none

/-- `id <> ALL(closure)`; a comparison with NULL is not true. -/
def outsideClosure (closure : List Nat) (id : Option Int) : Bool :=
  id.any fun id => closure.all fun d => (d : Int) != id

/-- The snapshot has elements, and none with an id outside the closure. -/
def snapshotWithin (closure : List Nat) (snapshot : Json) : Bool :=
  decide ((jsonbElements snapshot).length > 0) &&
    !((jsonbElements snapshot).any fun el => outsideClosure closure (elementId el))

/-! ## Objects -/

def Within (closure : List Nat) (departments : List DepartmentRef) : Prop :=
  ∀ d ∈ departments, d.id ∈ closure

def Mixed (closure : List Nat) (objects : List (List DepartmentRef)) : Prop :=
  (∃ o ∈ objects, o ≠ [] ∧ Within closure o) ∧ ∃ o ∈ objects, ¬ Within closure o

instance (closure : List Nat) (departments : List DepartmentRef) :
    Decidable (Within closure departments) := by unfold Within; infer_instance

instance (closure : List Nat) (objects : List (List DepartmentRef)) :
    Decidable (Mixed closure objects) := by unfold Mixed; infer_instance

section Facts

variable {closure : List Nat}

theorem elementId_toJson (d : DepartmentRef) : elementId d.toJson = some (d.id : Int) := by
  simp [elementId, DepartmentRef.toJson, Json.field?]

theorem outsideClosure_some (n : Nat) :
    outsideClosure closure (some (n : Int)) = true ↔ n ∉ closure := by
  simp only [outsideClosure, Option.any_some, List.all_eq_true, bne_iff_ne, ne_eq,
    Int.natCast_inj]
  constructor
  · intro h hn
    exact h n hn rfl
  · intro h d hd hdn
    exact h (hdn ▸ hd)

theorem snapshotWithin_departmentsJson (ds : List DepartmentRef) :
    snapshotWithin closure (departmentsJson ds) = true ↔ ds ≠ [] ∧ Within closure ds := by
  have hany : ((ds.map DepartmentRef.toJson).any fun el =>
      outsideClosure closure (elementId el)) = true ↔ ¬ Within closure ds := by
    simp only [List.any_map, List.any_eq_true, Function.comp_apply, elementId_toJson,
      outsideClosure_some, Within, not_forall, exists_prop]
  simp only [snapshotWithin, jsonbElements, departmentsJson, Bool.and_eq_true, decide_eq_true_eq,
    List.length_map, gt_iff_lt, List.length_pos_iff, Bool.not_eq_true', and_congr_right_iff]
  intro _
  rw [← Bool.not_eq_true, hany, not_not]

variable (objects : List (List DepartmentRef))

theorem scopeCoversAll_objects (companyOnly : Bool) :
    scopeCoversAll (.department closure)
        ((objects.map departmentsJson).flatMap extractDepartmentIdsFromSnapshot) companyOnly = true ↔
      companyOnly = false ∧ (∃ o ∈ objects, o ≠ []) ∧ ∀ o ∈ objects, Within closure o := by
  have hids : (objects.map departmentsJson).flatMap extractDepartmentIdsFromSnapshot =
      objects.flatMap fun o => o.map fun d => some (d.id : Int) := by
    simp only [List.flatMap_map, extractDepartmentIds_departmentsJson]
  have hin : ∀ n : Nat, (closure.any fun d => (d : Int) == (n : Int)) = true ↔ n ∈ closure := by
    intro n
    simp only [List.any_eq_true, beq_iff_eq, Int.natCast_inj, exists_eq_right]
  rw [hids]
  simp only [scopeCoversAll, Bool.and_eq_true, Bool.not_eq_true', List.isEmpty_eq_false_iff,
    ne_eq, List.flatMap_eq_nil_iff, List.map_eq_nil_iff, not_forall, exists_prop,
    List.all_eq_true, List.mem_flatMap, List.mem_map, forall_exists_index, and_imp, and_assoc]
  constructor
  · intro h
    refine ⟨h.1, h.2.1, fun o ho d hd => ?_⟩
    exact (hin d.id).mp (h.2.2 _ o ho d hd rfl)
  · intro h
    refine ⟨h.1, h.2.1, fun id o ho d hd hid => ?_⟩
    subst hid
    exact (hin d.id).mpr (h.2.2 o ho d hd)

theorem listed_iff_covered_iff (companyOnly : Bool) :
    ((companyOnly = false ∧ ∃ s ∈ objects.map departmentsJson, snapshotWithin closure s = true) ↔
        scopeCoversAll (.department closure)
          ((objects.map departmentsJson).flatMap extractDepartmentIdsFromSnapshot)
          companyOnly = true) ↔
      ¬ (companyOnly = false ∧ Mixed closure objects) := by
  rw [scopeCoversAll_objects]
  simp only [List.mem_map, exists_exists_and_eq_and, snapshotWithin_departmentsJson]
  unfold Mixed
  constructor
  · rintro hiff ⟨hcompany, hwithin, o, ho, hout⟩
    exact hout ((hiff.mp ⟨hcompany, hwithin⟩).2.2 o ho)
  · intro hmixed
    constructor
    · rintro ⟨hcompany, o, ho, hne, hwithin⟩
      refine ⟨hcompany, ⟨o, ho, hne⟩, fun o' ho' => ?_⟩
      by_contra hout
      exact hmixed ⟨hcompany, ⟨o, ho, hne, hwithin⟩, o', ho', hout⟩
    · rintro ⟨hcompany, ⟨o, ho, hne⟩, hall⟩
      exact ⟨hcompany, o, ho, hne, hall o ho⟩

def coversObjects (closure : List Nat) (objects : List (List DepartmentRef)) : Bool :=
  scopeCoversAll (.department closure)
    ((objects.map departmentsJson).flatMap extractDepartmentIdsFromSnapshot) false

theorem coversObjects_iff :
    coversObjects closure objects = true ↔
      (∃ o ∈ objects, o ≠ []) ∧ ∀ o ∈ objects, Within closure o := by
  rw [coversObjects, scopeCoversAll_objects]
  exact and_iff_right rfl

theorem not_coversObjects_iff :
    ¬ coversObjects closure objects = true ↔
      (∀ o ∈ objects, o = []) ∨ ∃ o ∈ objects, ¬ Within closure o := by
  rw [coversObjects_iff]
  constructor
  · intro h
    by_contra hcond
    simp only [not_or, not_forall, not_exists, not_and, not_not, exists_prop] at hcond
    exact h hcond
  · rintro (hnone | ⟨o, ho, hout⟩) ⟨⟨o', ho', hne⟩, hall⟩
    · exact hne (hnone o' ho')
    · exact hout (hall o ho)

theorem refused_of_empty_iff :
    ([] ∈ objects → ¬ coversObjects closure objects = true) ↔
      [] ∉ objects ∨ (∀ o ∈ objects, o = []) ∨ ∃ o ∈ objects, ¬ Within closure o := by
  rw [not_coversObjects_iff, imp_iff_not_or]

theorem coversObjects_insert (before after : List (List DepartmentRef)) :
    coversObjects closure (before ++ [] :: after) = coversObjects closure (before ++ after) := by
  simp [coversObjects, extractDepartmentIds_departmentsJson]

theorem refused_insert_iff (before after : List (List DepartmentRef)) :
    (coversObjects closure (before ++ after) = true →
        ¬ coversObjects closure (before ++ [] :: after) = true) ↔
      (∀ o ∈ before ++ after, o = []) ∨ ∃ o ∈ before ++ after, ¬ Within closure o := by
  rw [coversObjects_insert, ← not_coversObjects_iff]
  exact imp_not_self

end Facts

end Wbme.Approval

import Mathlib.Logic.Relation
import Wbme.Hr.Store
import Wbme.Lib.RecursiveQuery

/-! # The closure of departments

The view `department_closure` pairs every department with itself and all below it. It is a
recursive query that carries the way it went: a department that is already on the way is not
entered again, so parents that form a cycle end the way instead of going round.
-/

namespace Wbme.Hr

open Lib

/-! ## The view -/

/-- A row of the recursive query. -/
structure ClosureRow where
  ancestorId : Nat
  descendantId : Nat
  path : List Nat
deriving DecidableEq

section View

variable (departments : Table Department)

/-- The first term: every department by itself. -/
def closureBase : List ClosureRow := departments.rows.map fun d => ⟨d.1, d.1, [d.1]⟩

/-- The recursive term: the departments below a row that are not on its way. -/
def closureNext (c : ClosureRow) : List ClosureRow :=
  departments.rows.filterMap fun d =>
    if d.2.parentId = some c.descendantId ∧ ¬ d.1 ∈ c.path then
      some ⟨c.ancestorId, d.1, c.path ++ [d.1]⟩
    else none

def departmentClosure (rounds : Nat) : Option (List (Nat × Nat)) :=
  (RecursiveQuery.evaluate rounds (closureBase departments) (closureNext departments)).map
    fun closure => (closure.map fun c => (c.ancestorId, c.descendantId)).dedup

end View

namespace DepartmentClosureService

variable (rounds : Nat) (s : HrStore)

def closureOf (departmentIds : List Nat) : Option (List Nat) :=
  if departmentIds.length = 0 then some []
  else (departmentClosure s.departments rounds).map fun rows =>
    ((rows.filter fun row => departmentIds.contains row.1).map (·.2)).dedup

def userOrg (userId : Nat) : List Nat :=
  (s.userDepartments.select fun _ ud =>
    ud.userId == userId && (s.departments.find? ud.departmentId).isSome).map (·.2.departmentId)

def closureOfUser (userId : Nat) : Option (List Nat) := closureOf rounds s (userOrg s userId)

end DepartmentClosureService

/-! ## What the query derives -/

/-- A department is put under another. -/
def Child (departments : Table Department) (c d : Nat) : Prop :=
  ∃ row, departments.find? d = some row ∧ row.parentId = some c

/-- From a department one comes to another by steps to children, or by none. -/
def Reaches (departments : Table Department) (a d : Nat) : Prop :=
  (departments.find? a).isSome = true ∧ Relation.ReflTransGen (Child departments) a d

section Derives

variable {departments : Table Department} {c c' : ClosureRow} {a d : Nat}

abbrev Derived (departments : Table Department) (c : ClosureRow) : Prop :=
  RecursiveQuery.Derives (closureBase departments) (closureNext departments) c

theorem mem_closureBase : c ∈ closureBase departments ↔
    ∃ a, (departments.find? a).isSome = true ∧ c = ⟨a, a, [a]⟩ := by
  unfold closureBase
  rw [List.mem_map]
  constructor
  · rintro ⟨⟨a, row⟩, hrow, rfl⟩
    exact ⟨a, by rw [Table.find?_eq_some_iff.mpr hrow]; rfl, rfl⟩
  · rintro ⟨a, hsome, rfl⟩
    obtain ⟨row, hrow⟩ := Option.isSome_iff_exists.mp hsome
    exact ⟨(a, row), Table.find?_eq_some_iff.mp hrow, rfl⟩

theorem mem_closureNext : c' ∈ closureNext departments c ↔
    ∃ d, Child departments c.descendantId d ∧ d ∉ c.path ∧
      c' = ⟨c.ancestorId, d, c.path ++ [d]⟩ := by
  unfold closureNext
  rw [List.mem_filterMap]
  constructor
  · rintro ⟨⟨d, row⟩, hrow, hsome⟩
    split at hsome
    · rename_i hchild
      cases hsome
      exact ⟨d, ⟨row, Table.find?_eq_some_iff.mpr hrow, hchild.1⟩, hchild.2, rfl⟩
    · cases hsome
  · rintro ⟨d, ⟨row, hrow, hparent⟩, hpath, rfl⟩
    exact ⟨(d, row), Table.find?_eq_some_iff.mp hrow, if_pos ⟨hparent, hpath⟩⟩

theorem Derived.path (h : Derived departments c) :
    c.path.Nodup ∧ ∀ x ∈ c.path, (departments.find? x).isSome = true := by
  induction h with
  | base hc =>
      obtain ⟨a, ha, rfl⟩ := mem_closureBase.mp hc
      refine ⟨List.nodup_singleton a, ?_⟩
      intro x hx
      rw [List.mem_singleton.mp hx]
      exact ha
  | next _ hc' ih =>
      obtain ⟨d, ⟨row, hrow, -⟩, hpath, rfl⟩ := mem_closureNext.mp hc'
      refine ⟨?_, ?_⟩
      · rw [List.nodup_append]
        refine ⟨ih.1, List.nodup_singleton d, ?_⟩
        intro x hx y hy hxy
        rw [List.mem_singleton.mp hy] at hxy
        exact hpath (hxy ▸ hx)
      · intro x hx
        rcases List.mem_append.mp hx with hx | hx
        · exact ih.2 x hx
        · rw [List.mem_singleton.mp hx, hrow]
          rfl

theorem Derived.reaches (h : Derived departments c) :
    Reaches departments c.ancestorId c.descendantId := by
  induction h with
  | base hc =>
      obtain ⟨a, ha, rfl⟩ := mem_closureBase.mp hc
      exact ⟨ha, .refl⟩
  | next _ hc' ih =>
      obtain ⟨d, hchild, -, rfl⟩ := mem_closureNext.mp hc'
      exact ⟨ih.1, ih.2.tail hchild⟩

theorem Derived.of_path (h : Derived departments c) {x : Nat} (hx : x ∈ c.path) :
    ∃ path, Derived departments ⟨c.ancestorId, x, path⟩ := by
  induction h with
  | base hc =>
      obtain ⟨a, -, rfl⟩ := mem_closureBase.mp hc
      rw [List.mem_singleton.mp hx]
      exact ⟨[a], .base hc⟩
  | next hc hc' ih =>
      obtain ⟨d, -, -, rfl⟩ := mem_closureNext.mp hc'
      rcases List.mem_append.mp hx with hx | hx
      · exact ih hx
      · rw [List.mem_singleton.mp hx]
        exact ⟨_, .next hc hc'⟩

theorem derived_of_reaches (h : Reaches departments a d) :
    ∃ path, Derived departments ⟨a, d, path⟩ := by
  obtain ⟨ha, hreach⟩ := h
  induction hreach with
  | refl => exact ⟨[a], .base (mem_closureBase.mpr ⟨a, ha, rfl⟩)⟩
  | tail _ hchild ih =>
      rename_i d e _
      obtain ⟨path, hpath⟩ := ih
      by_cases hmem : e ∈ path
      · exact hpath.of_path hmem
      · exact ⟨_, .next hpath (mem_closureNext.mpr ⟨e, hchild, hmem, rfl⟩)⟩

theorem Derived.path_length (h : Derived departments c) :
    c.path.length ≤ departments.rows.length := by
  obtain ⟨hnodup, hmem⟩ := h.path
  have hsub : c.path ⊆ departments.rows.map (·.1) := by
    intro x hx
    obtain ⟨row, hrow⟩ := Option.isSome_iff_exists.mp (hmem x hx)
    exact List.mem_map.mpr ⟨(x, row), Table.find?_eq_some_iff.mp hrow, rfl⟩
  have hle := (List.subperm_of_subset hnodup hsub).length_le
  rwa [List.length_map] at hle

end Derives

/-! ## What the view holds -/

theorem departmentClosure_spec (departments : Table Department) {rounds : Nat}
    (hrounds : departments.rows.length < rounds) :
    ∃ rows, departmentClosure departments rounds = some rows ∧ rows.Nodup ∧
      ∀ a d, (a, d) ∈ rows ↔ Reaches departments a d := by
  obtain ⟨closure, hclosure⟩ : ∃ closure, RecursiveQuery.evaluate rounds (closureBase departments)
      (closureNext departments) = some closure := by
    apply RecursiveQuery.evaluate_isSome fun c => c.path.length
    · intro c _ c' hc'
      obtain ⟨d, -, -, rfl⟩ := mem_closureNext.mp hc'
      rw [List.length_append]
      exact Nat.lt_succ_self _
    · intro c hc
      exact Nat.lt_of_le_of_lt (Derived.path_length hc) hrounds
  obtain ⟨-, hmem⟩ := RecursiveQuery.evaluate_spec hclosure
  refine ⟨_, by unfold departmentClosure; rw [hclosure]; rfl, List.nodup_dedup _, ?_⟩
  intro a d
  rw [List.mem_dedup, List.mem_map]
  constructor
  · rintro ⟨c, hc, hpair⟩
    cases hpair
    exact Derived.reaches ((hmem c).mp hc)
  · intro hreach
    obtain ⟨path, hpath⟩ := derived_of_reaches hreach
    exact ⟨⟨a, d, path⟩, (hmem _).mpr hpath, rfl⟩

namespace DepartmentClosureService

theorem closureOf_spec (s : HrStore) {rounds : Nat} (hrounds : s.departments.rows.length < rounds)
    (departmentIds : List Nat) :
    ∃ closure, closureOf rounds s departmentIds = some closure ∧ closure.Nodup ∧
      ∀ d, d ∈ closure ↔ ∃ a ∈ departmentIds, Reaches s.departments a d := by
  unfold closureOf
  split
  · rename_i hempty
    refine ⟨[], rfl, List.nodup_nil, ?_⟩
    intro d
    rw [List.length_eq_zero_iff.mp hempty]
    simp
  · obtain ⟨rows, hrows, -, hmem⟩ := departmentClosure_spec s.departments hrounds
    rw [hrows]
    refine ⟨_, rfl, List.nodup_dedup _, ?_⟩
    intro d
    rw [List.mem_dedup, List.mem_map]
    constructor
    · rintro ⟨⟨a, d'⟩, hrow, rfl⟩
      rw [List.mem_filter, List.contains_iff_mem] at hrow
      exact ⟨a, hrow.2, (hmem a d').mp hrow.1⟩
    · rintro ⟨a, ha, hreach⟩
      refine ⟨(a, d), ?_, rfl⟩
      rw [List.mem_filter, List.contains_iff_mem]
      exact ⟨(hmem a d).mpr hreach, ha⟩

theorem mem_userOrg {s : HrStore} {userId a : Nat} : a ∈ userOrg s userId ↔
    (∃ id ud, s.userDepartments.find? id = some ud ∧ ud.userId = userId ∧ ud.departmentId = a) ∧
      (s.departments.find? a).isSome = true := by
  unfold userOrg
  rw [List.mem_map]
  constructor
  · rintro ⟨⟨id, ud⟩, hrow, rfl⟩
    rw [Table.mem_select, Bool.and_eq_true, beq_iff_eq] at hrow
    exact ⟨⟨id, ud, hrow.1, hrow.2.1, rfl⟩, hrow.2.2⟩
  · rintro ⟨⟨id, ud, hrow, huser, rfl⟩, hsome⟩
    refine ⟨(id, ud), ?_, rfl⟩
    rw [Table.mem_select, Bool.and_eq_true, beq_iff_eq]
    exact ⟨hrow, huser, hsome⟩

def BelongsTo (s : HrStore) (userId a : Nat) : Prop :=
  ∃ id ud, s.userDepartments.find? id = some ud ∧ ud.userId = userId ∧ ud.departmentId = a

/-- Whatever the parents of the departments are, the view comes to an end and pairs each of them
with those that are reached from it, once; and the closure of a user is the union of the
closures of the departments of that user. -/
theorem closure_reachable (s : HrStore) :
    ∃ enough view, (∀ rounds, enough ≤ rounds →
        departmentClosure s.departments rounds = some view) ∧
      view.Nodup ∧ (∀ a d, (a, d) ∈ view ↔ Reaches s.departments a d) ∧
      ∀ rounds, enough ≤ rounds → ∀ userId, ∃ closure,
        closureOfUser rounds s userId = some closure ∧ closure.Nodup ∧
        ∀ d, d ∈ closure ↔ ∃ a, BelongsTo s userId a ∧
          ∃ below, closureOf rounds s [a] = some below ∧ d ∈ below := by
  obtain ⟨view, hview, hnodup, hmem⟩ :=
    departmentClosure_spec s.departments (Nat.lt_succ_self s.departments.rows.length)
  refine ⟨s.departments.rows.length + 1, view, ?_, hnodup, hmem, ?_⟩
  · intro rounds hrounds
    unfold departmentClosure at hview ⊢
    obtain ⟨closure, hclosure, hrows⟩ := Option.map_eq_some_iff.mp hview
    rw [Option.map_eq_some_iff]
    exact ⟨closure, RecursiveQuery.finish_mono hrounds hclosure, hrows⟩
  · intro rounds hrounds userId
    obtain ⟨closure, hclosure, hclosureNodup, hclosureMem⟩ :=
      closureOf_spec s hrounds (userOrg s userId)
    refine ⟨closure, hclosure, hclosureNodup, ?_⟩
    intro d
    rw [hclosureMem]
    constructor
    · rintro ⟨a, ha, hreach⟩
      obtain ⟨below, hbelow, -, hbelowMem⟩ := closureOf_spec s hrounds [a]
      refine ⟨a, (mem_userOrg.mp ha).1, below, hbelow, (hbelowMem d).mpr ?_⟩
      exact ⟨a, List.mem_singleton_self a, hreach⟩
    · rintro ⟨a, hbelongs, below, hbelow, hd⟩
      obtain ⟨below', hbelow', -, hbelowMem⟩ := closureOf_spec s hrounds [a]
      rw [hbelow] at hbelow'
      cases hbelow'
      obtain ⟨a', ha', hreach⟩ := (hbelowMem d).mp hd
      rw [List.mem_singleton.mp ha'] at hreach
      exact ⟨a, mem_userOrg.mpr ⟨hbelongs, hreach.1⟩, hreach⟩

end DepartmentClosureService

end Wbme.Hr

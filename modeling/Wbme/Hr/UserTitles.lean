import Wbme.Hr.Store

/-! # The titles of users

The view `user_titles` joins every user with every active rule, counts the conditions that a rule
has and those that hold, and numbers the rules that fit by their order.
-/

namespace Wbme.Hr.UserTitles

open Lib

inductive RoleCondition where
  | superAdmin
  | employee

structure TitleRule where
  titleName : String
  departmentId : Option Nat
  positionId : Option Nat
  roleCondition : Option RoleCondition
  status : OrgStatus
  sort : Int
  deletedAt : Option Int

/-- A row of `site_roles`. -/
structure SiteRole where
  name : String
  isSuperAdmin : Bool

/-- What the view reads. -/
structure Tables where
  siteRoles : Table SiteRole
  userDepartments : List (Nat × Nat)
  userPositions : List (Nat × Option Nat)
  titleRules : Table TitleRule

structure MatchRow where
  userId : Nat
  ruleId : Nat
  titleName : String
  sort : Int
  conditionsCount : Nat
  matchedCount : Nat

section View

variable (t : Tables)

def activeRules : List (Nat × TitleRule) :=
  t.titleRules.select fun _ r => r.status = .active ∧ r.deletedAt = none

def roleHolds (u : SiteRole) : RoleCondition → Bool
  | .superAdmin => u.isSuperAdmin
  | .employee => !u.isSuperAdmin

def conditionCount {α : Type} (condition : Option α) (holds : α → Bool) : Nat :=
  match condition with
  | none => 0
  | some x => if holds x then 1 else 0

def matchRow (u : Nat × SiteRole) (r : Nat × TitleRule) : MatchRow where
  userId := u.1
  ruleId := r.1
  titleName := r.2.titleName
  sort := r.2.sort
  conditionsCount := conditionCount r.2.departmentId (fun _ => true) +
    conditionCount r.2.positionId (fun _ => true) + conditionCount r.2.roleCondition fun _ => true
  matchedCount := conditionCount r.2.departmentId (fun d => t.userDepartments.contains (u.1, d)) +
    conditionCount r.2.positionId (fun p => t.userPositions.contains (u.1, some p)) +
    conditionCount r.2.roleCondition (roleHolds u.2)

def matchRows : List MatchRow :=
  t.siteRoles.rows.flatMap fun u => (activeRules t).map (matchRow t u)

def hit : List MatchRow := (matchRows t).filter fun x => x.matchedCount = x.conditionsCount

/-- `ORDER BY matched_count DESC, sort ASC, rule_id ASC` -/
def goesBefore (x y : MatchRow) : Bool :=
  x.matchedCount > y.matchedCount ∨ x.matchedCount = y.matchedCount ∧
    (x.sort < y.sort ∨ x.sort = y.sort ∧ x.ruleId < y.ruleId)

/-- The place of a row among those of its user; rules have different numbers, so rows of a user do
not tie. -/
def rowNumber (x : MatchRow) : Nat :=
  (hit t).countP (fun y => y.userId = x.userId ∧ goesBefore y x = true) + 1

structure UserTitle where
  userId : Nat
  name : String
  titleName : Option String

def userTitles : List UserTitle :=
  t.siteRoles.rows.flatMap fun u =>
    match (hit t).filter fun x => x.userId = u.1 ∧ rowNumber t x = 1 with
    | [] => [⟨u.1, u.2.name, none⟩]
    | rows => rows.map fun x => ⟨u.1, u.2.name, some x.titleName⟩

end View

/-! ## What a title is -/

structure Fits (t : Tables) (userId : Nat) (u : SiteRole) (r : TitleRule) : Prop where
  active : r.status = .active
  kept : r.deletedAt = none
  department : ∀ d, r.departmentId = some d → (userId, d) ∈ t.userDepartments
  position : ∀ p, r.positionId = some p → (userId, some p) ∈ t.userPositions
  role : ∀ c, r.roleCondition = some c → (c = .superAdmin ↔ u.isSuperAdmin = true)

def conditions (r : TitleRule) : Nat :=
  r.departmentId.toList.length + r.positionId.toList.length + r.roleCondition.toList.length

/-- More conditions, then the smaller sort, then the smaller number. -/
def Before (r r' : Nat × TitleRule) : Prop :=
  conditions r.2 > conditions r'.2 ∨ conditions r.2 = conditions r'.2 ∧
    (r.2.sort < r'.2.sort ∨ r.2.sort = r'.2.sort ∧ r.1 < r'.1)

/-- The rule that goes before all others that fit. -/
def Decides (t : Tables) (userId : Nat) (u : SiteRole) (id : Nat) (r : TitleRule) : Prop :=
  (t.titleRules.find? id = some r ∧ Fits t userId u r) ∧ ∀ id' r',
    t.titleRules.find? id' = some r' → Fits t userId u r' → id' ≠ id → Before (id, r) (id', r')

section Rows

variable {t : Tables}

theorem conditionCount_all {α : Type} (condition : Option α) :
    conditionCount condition (fun _ => true) = condition.toList.length := by
  cases condition <;> rfl

theorem conditionCount_le {α : Type} (condition : Option α) (holds : α → Bool) :
    conditionCount condition holds ≤ condition.toList.length := by
  cases condition with
  | none => exact Nat.le_refl _
  | some x =>
      unfold conditionCount
      dsimp only
      split <;> simp

theorem conditionCount_eq_iff {α : Type} (condition : Option α) (holds : α → Bool) :
    conditionCount condition holds = condition.toList.length ↔
      ∀ x, condition = some x → holds x = true := by
  cases condition with
  | none => simp [conditionCount]
  | some x => simp [conditionCount]

theorem conditionsCount_matchRow (u : Nat × SiteRole) (r : Nat × TitleRule) :
    (matchRow t u r).conditionsCount = conditions r.2 := by
  simp only [matchRow, conditionCount_all, conditions]

theorem roleHolds_iff (u : SiteRole) (c : RoleCondition) :
    roleHolds u c = true ↔ (c = .superAdmin ↔ u.isSuperAdmin = true) := by
  cases c <;> simp [roleHolds]

variable {u : Nat × SiteRole} {r : TitleRule}

theorem matched_iff {r : Nat × TitleRule} (hr : r ∈ activeRules t) :
    (matchRow t u r).matchedCount = (matchRow t u r).conditionsCount ↔ Fits t u.1 u.2 r.2 := by
  obtain ⟨-, hactive⟩ := Table.mem_select.mp hr
  have hactive : r.2.status = .active ∧ r.2.deletedAt = none := of_decide_eq_true hactive
  have h1 := conditionCount_le r.2.departmentId (fun d => t.userDepartments.contains (u.1, d))
  have h2 := conditionCount_le r.2.positionId (fun p => t.userPositions.contains (u.1, some p))
  have h3 := conditionCount_le r.2.roleCondition (roleHolds u.2)
  have hd := conditionCount_eq_iff r.2.departmentId (fun d => t.userDepartments.contains (u.1, d))
  have hp := conditionCount_eq_iff r.2.positionId (fun p => t.userPositions.contains (u.1, some p))
  have hc := conditionCount_eq_iff r.2.roleCondition (roleHolds u.2)
  simp only [List.contains_iff_mem, roleHolds_iff] at hd hp hc
  rw [conditionsCount_matchRow]
  simp only [matchRow, conditions]
  constructor
  · intro h
    exact ⟨hactive.1, hactive.2, hd.mp (by omega), hp.mp (by omega), hc.mp (by omega)⟩
  · intro h
    rw [hd.mpr h.department, hp.mpr h.position, hc.mpr h.role]

variable {id : Nat}

theorem mem_activeRules : (id, r) ∈ activeRules t ↔
    t.titleRules.find? id = some r ∧ r.status = .active ∧ r.deletedAt = none := by
  rw [activeRules, Table.mem_select, decide_eq_true_eq]

theorem mem_hit (hu : u ∈ t.siteRoles.rows) {x : MatchRow} :
    x ∈ hit t ∧ x.userId = u.1 ↔ ∃ id r, t.titleRules.find? id = some r ∧
      Fits t u.1 u.2 r ∧ x = matchRow t u (id, r) := by
  simp only [hit, matchRows, List.mem_filter, List.mem_flatMap, List.mem_map, decide_eq_true_eq]
  constructor
  · intro ⟨⟨⟨v, hv, ⟨id, r⟩, hr, hx⟩, hmatched⟩, huser⟩
    subst hx
    have hsame : v = u := by
      have hfind := Table.find?_eq_some_iff.mpr hv
      rw [show v.1 = u.1 from huser, Table.find?_eq_some_iff.mpr hu] at hfind
      exact Prod.ext huser (Option.some.inj hfind).symm
    subst hsame
    exact ⟨id, r, (mem_activeRules.mp hr).1, (matched_iff hr).mp hmatched, rfl⟩
  · intro ⟨id, r, hrow, hfits, hx⟩
    subst hx
    have hr : (id, r) ∈ activeRules t := mem_activeRules.mpr ⟨hrow, hfits.active, hfits.kept⟩
    exact ⟨⟨⟨u, hu, (id, r), hr, rfl⟩, (matched_iff hr).mpr hfits⟩, rfl⟩

theorem goesBefore_iff {r r' : Nat × TitleRule} (h : Fits t u.1 u.2 r.2) (h' : Fits t u.1 u.2 r'.2)
    (hr : r ∈ activeRules t) (hr' : r' ∈ activeRules t) :
    goesBefore (matchRow t u r) (matchRow t u r') = true ↔ Before r r' := by
  unfold goesBefore Before
  rw [decide_eq_true_eq, (matched_iff hr).mpr h, (matched_iff hr').mpr h',
    conditionsCount_matchRow, conditionsCount_matchRow]
  rfl

theorem rowNumber_eq_one_iff (hu : u ∈ t.siteRoles.rows) (hrow : t.titleRules.find? id = some r)
    (hfits : Fits t u.1 u.2 r) :
    rowNumber t (matchRow t u (id, r)) = 1 ↔ Decides t u.1 u.2 id r := by
  have hr : (id, r) ∈ activeRules t := mem_activeRules.mpr ⟨hrow, hfits.active, hfits.kept⟩
  rw [rowNumber, Nat.add_eq_right, List.countP_eq_zero]
  constructor
  · intro h
    refine ⟨⟨hrow, hfits⟩, fun id' r' hrow' hfits' hne => ?_⟩
    have hr' : (id', r') ∈ activeRules t :=
      mem_activeRules.mpr ⟨hrow', hfits'.active, hfits'.kept⟩
    have hnot := h (matchRow t u (id', r')) ((mem_hit hu).mpr ⟨id', r', hrow', hfits', rfl⟩).1
    rw [decide_eq_true_eq, goesBefore_iff hfits' hfits hr' hr] at hnot
    have hnot : ¬ Before (id', r') (id, r) := fun hb => hnot ⟨rfl, hb⟩
    unfold Before at hnot ⊢
    simp only at hnot ⊢
    omega
  · intro ⟨_, hfirst⟩ y hy hbefore
    obtain ⟨huser, hbefore⟩ := of_decide_eq_true hbefore
    obtain ⟨id', r', hrow', hfits', rfl⟩ := (mem_hit hu).mp ⟨hy, huser⟩
    have hr' : (id', r') ∈ activeRules t :=
      mem_activeRules.mpr ⟨hrow', hfits'.active, hfits'.kept⟩
    have hb := (goesBefore_iff hfits' hfits hr' hr).mp hbefore
    by_cases heq : id' = id
    · subst heq
      rw [hrow] at hrow'
      cases hrow'
      unfold Before at hb
      omega
    · have hb' := hfirst id' r' hrow' hfits' heq
      unfold Before at hb hb'
      simp only at hb hb'
      omega

/-! ## The rows of the view -/

/-- Rules in the order in which they decide. -/
def rank (r : Nat × TitleRule) : Int ×ₗ Int ×ₗ Nat :=
  toLex (-(conditions r.2 : Int), toLex (r.2.sort, r.1))

theorem before_of_rank_le {r r' : Nat × TitleRule} (h : rank r ≤ rank r') (hne : r'.1 ≠ r.1) :
    Before r r' := by
  simp only [rank, Prod.Lex.toLex_le_toLex] at h
  unfold Before
  omega

theorem exists_decides {userId : Nat} {u : SiteRole} (hrow : t.titleRules.find? id = some r)
    (hfits : Fits t userId u r) : ∃ id r, Decides t userId u id r := by
  classical
  have hmem : ∀ x : Nat × TitleRule, x ∈ (t.titleRules.rows.filter (Fits t userId u ·.2)).toFinset ↔
      t.titleRules.find? x.1 = some x.2 ∧ Fits t userId u x.2 := by
    intro x
    rw [List.mem_toFinset, List.mem_filter, decide_eq_true_eq, Table.find?_eq_some_iff]
  obtain ⟨first, hfirst, hmin⟩ :=
    Finset.exists_min_image _ rank ⟨(id, r), (hmem _).mpr ⟨hrow, hfits⟩⟩
  refine ⟨first.1, first.2, (hmem first).mp hfirst, fun id' r' hrow' hfits' hne => ?_⟩
  exact before_of_rank_le (hmin (id', r') ((hmem _).mpr ⟨hrow', hfits'⟩)) hne

theorem Decides.unique {userId : Nat} {u : SiteRole} {id id' : Nat} {r r' : TitleRule}
    (h : Decides t userId u id r) (h' : Decides t userId u id' r') : id = id' ∧ r = r' := by
  by_cases heq : id = id'
  · subst heq
    exact ⟨rfl, Option.some.inj (h.1.1.symm.trans h'.1.1)⟩
  · have hb := h.2 id' r' h'.1.1 h'.1.2 fun he => heq he.symm
    have hb' := h'.2 id r h.1.1 h.1.2 heq
    unfold Before at hb hb'
    simp only at hb hb'
    omega

theorem nodup_hit : (hit t).Nodup := by
  have hkeys : ∀ {α : Type} (table : Table α), table.rows.Nodup := fun table =>
    table.sorted.imp fun {a b} hab heq => by
      subst heq
      exact Nat.lt_irrefl _ hab
  refine List.Nodup.filter _ (List.nodup_flatMap.mpr ⟨fun u _ => ?_, ?_⟩)
  · refine ((hkeys t.titleRules).filter _).map_on fun r hr r' hr' heq => ?_
    have hid : r.1 = r'.1 := congrArg MatchRow.ruleId heq
    have hfind := (mem_activeRules.mp hr).1
    rw [hid, (mem_activeRules.mp hr').1] at hfind
    exact Prod.ext hid (Option.some.inj hfind).symm
  · refine t.siteRoles.sorted.imp fun {u v} hlt x hx hy => ?_
    obtain ⟨r, -, rfl⟩ := List.mem_map.mp hx
    obtain ⟨r', -, heq⟩ := List.mem_map.mp hy
    have huser : v.1 = u.1 := congrArg MatchRow.userId heq
    omega

/-- The row of a user. -/
def titleOf (t : Tables) (u : Nat × SiteRole) : Option String :=
  ((hit t).filter fun x => x.userId = u.1 ∧ rowNumber t x = 1).head?.map (·.titleName)

theorem firsts_eq (hu : u ∈ t.siteRoles.rows) (h : Decides t u.1 u.2 id r) :
    (hit t).filter (fun x => x.userId = u.1 ∧ rowNumber t x = 1) = [matchRow t u (id, r)] := by
  apply List.perm_singleton.mp
  apply (List.perm_ext_iff_of_nodup (nodup_hit.filter _) (List.nodup_singleton _)).mpr
  intro x
  rw [List.mem_filter, decide_eq_true_eq, List.mem_singleton, ← and_assoc, mem_hit hu]
  constructor
  · intro ⟨⟨id', r', hrow', hfits', hx⟩, hone⟩
    subst hx
    obtain ⟨rfl, rfl⟩ := h.unique ((rowNumber_eq_one_iff hu hrow' hfits').mp hone)
    rfl
  · intro hx
    subst hx
    exact ⟨⟨id, r, h.1.1, h.1.2, rfl⟩, (rowNumber_eq_one_iff hu h.1.1 h.1.2).mpr h⟩

theorem firsts_nil (hu : u ∈ t.siteRoles.rows)
    (h : ¬ ∃ id r, t.titleRules.find? id = some r ∧ Fits t u.1 u.2 r) :
    (hit t).filter (fun x => x.userId = u.1 ∧ rowNumber t x = 1) = [] := by
  apply List.filter_eq_nil_iff.mpr
  intro x hx hfirst
  obtain ⟨id, r, hrow, hfits, -⟩ := (mem_hit hu).mp ⟨hx, (of_decide_eq_true hfirst).1⟩
  exact h ⟨id, r, hrow, hfits⟩

/-- The view has one row for every user of `site_roles`, with the title of the rule that decides,
and without a title when no rule fits. -/
theorem userTitles_spec (t : Tables) :
    (userTitles t).map (fun x => (x.userId, x.name)) =
        t.siteRoles.rows.map (fun u => (u.1, u.2.name)) ∧
      ∀ x ∈ userTitles t, ∃ u, t.siteRoles.find? x.userId = some u ∧
        (∀ title, x.titleName = some title ↔
          ∃ id r, Decides t x.userId u id r ∧ r.titleName = title) ∧
        (x.titleName = none ↔ ¬ ∃ id r, t.titleRules.find? id = some r ∧ Fits t x.userId u r) := by
  have hcases : ∀ u : Nat × SiteRole, (∃ id r, Decides t u.1 u.2 id r) ∨
      ¬ ∃ id r, t.titleRules.find? id = some r ∧ Fits t u.1 u.2 r := by
    intro u
    by_cases h : ∃ id r, t.titleRules.find? id = some r ∧ Fits t u.1 u.2 r
    · obtain ⟨id, r, hrow, hfits⟩ := h
      exact .inl (exists_decides hrow hfits)
    · exact .inr h
  have hrows : userTitles t = t.siteRoles.rows.map fun u => ⟨u.1, u.2.name, titleOf t u⟩ := by
    rw [userTitles, List.map_eq_flatMap]
    apply List.flatMap_congr
    intro u hu
    unfold titleOf
    rcases hcases u with ⟨id, r, h⟩ | h
    · rw [firsts_eq hu h]
      rfl
    · rw [firsts_nil hu h]
      rfl
  rw [hrows]
  refine ⟨by rw [List.map_map]; rfl, fun x hx => ?_⟩
  obtain ⟨u, hu, rfl⟩ := List.mem_map.mp hx
  refine ⟨u.2, Table.find?_eq_some_iff.mpr hu, ?_⟩
  dsimp only
  rcases hcases u with ⟨id, r, h⟩ | h
  · have htitle : titleOf t u = some r.titleName := by
      rw [titleOf, firsts_eq hu h]
      rfl
    rw [htitle]
    refine ⟨fun title => ⟨fun heq => ⟨id, r, h, Option.some.inj heq⟩, ?_⟩, ?_⟩
    · intro ⟨id', r', h', heq⟩
      rw [(h.unique h').2, heq]
    · exact ⟨(fun heq => by cases heq), fun hnone => absurd ⟨id, r, h.1⟩ hnone⟩
  · have htitle : titleOf t u = none := by
      rw [titleOf, firsts_nil hu h]
      rfl
    rw [htitle]
    refine ⟨fun title => ⟨(fun heq => by cases heq), ?_⟩, fun _ => h, fun _ => rfl⟩
    intro ⟨id, r, hd, _⟩
    exact absurd ⟨id, r, hd.1⟩ h

end Rows
end Wbme.Hr.UserTitles

import Wbme.TableQuery.Memory

/-!
# SQL and memory

Where the two interpretations of a filter tree agree. What a tree makes of a row is a
function of what its conditions make of it, the same function on both sides as long as no
group is empty, so the question is one of single conditions. There the two differ where a
column is `NULL` or a text value contains wildcards.
-/

namespace Wbme.TableQuery

open Lib

/-! ## Trees -/

mutual

def TableFilterTreeNode.leaves : TableFilterTreeNode → List TableFilterCondition
  | .condition c => [c]
  | .group _ conditions => leavesList conditions

def leavesList : List TableFilterTreeNode → List TableFilterCondition
  | [] => []
  | node :: nodes => node.leaves ++ leavesList nodes

end

mutual

def TableFilterTreeNode.noEmptyGroup : TableFilterTreeNode → Bool
  | .condition _ => true
  | .group _ conditions => !conditions.isEmpty && noEmptyGroups conditions

def noEmptyGroups : List TableFilterTreeNode → Bool
  | [] => true
  | node :: nodes => node.noEmptyGroup && noEmptyGroups nodes

end

/-- What two members of a group make of a row together. -/
def Outcome.join (logic : Logic) : Outcome → Outcome → Outcome
  | .refused, _ => .refused
  | _, .refused => .refused
  | .kept, .kept => .kept
  | .dropped, .dropped => .dropped
  | _, _ =>
      match logic with
      | .and => .dropped
      | .or => .kept

mutual

def TableFilterTreeNode.outcomeWith (leaf : TableFilterCondition → Outcome)
    (empty : Logic → Outcome) : TableFilterTreeNode → Outcome
  | .condition c => leaf c
  | .group logic conditions => outcomeOfGroup leaf empty logic conditions

def outcomeOfGroup (leaf : TableFilterCondition → Outcome) (empty : Logic → Outcome)
    (logic : Logic) : List TableFilterTreeNode → Outcome
  | [] => empty logic
  | [node] => node.outcomeWith leaf empty
  | node :: nodes =>
      (node.outcomeWith leaf empty).join logic (outcomeOfGroup leaf empty logic nodes)

end

/-! ## SQL trees -/

def outcomeOf : Except String (Option Bool) → Outcome
  | .ok (some true) => .kept
  | .ok _ => .dropped
  | .error _ => .refused

theorem outcomeOf_and (x y : Except String (Option Bool)) :
    outcomeOf (do return and3 (← x) (← y)) = (outcomeOf x).join .and (outcomeOf y) := by
  cases x with
  | error e => rfl
  | ok a => cases y with
    | error e => cases a with
      | none => rfl
      | some a => cases a <;> rfl
    | ok b => rcases a with _ | (_ | _) <;> rcases b with _ | (_ | _) <;> rfl

theorem outcomeOf_or (x y : Except String (Option Bool)) :
    outcomeOf (do return or3 (← x) (← y)) = (outcomeOf x).join .or (outcomeOf y) := by
  cases x with
  | error e => rfl
  | ok a => cases y with
    | error e => cases a with
      | none => rfl
      | some a => cases a <;> rfl
    | ok b => rcases a with _ | (_ | _) <;> rcases b with _ | (_ | _) <;> rfl

section Sql

variable {folding : CaseFolding} {now : Int} {parameterOffset : Nat}
  {fields : String → Option TableSqlField} {row : Row}

/-- Whatever parameters there are already, compilation adds some, and the predicate it
returns gives the outcome, also when more are added later. -/
def Computes (folding : CaseFolding) (parameterOffset : Nat) (row : Row)
    (m : Compile SqlPredicate) (o : Outcome) : Prop :=
  ∀ ps,
    match m ps with
    | .error _ => o = .refused
    | .ok (p, ps') => ∃ qs, ps' = ps ++ qs ∧ ∀ rs,
        outcomeOf (p.eval ⟨folding, parameterOffset, ps' ++ rs⟩ row) = o

/-- Two members of a group. -/
def SqlPredicate.combine (logic : Logic) (p q : SqlPredicate) : SqlPredicate :=
  match logic with
  | .and => .and p q
  | .or => .or p q

theorem outcomeOf_combine (context : SqlContext) (row : Row) (logic : Logic) (p q : SqlPredicate) :
    outcomeOf ((SqlPredicate.combine logic p q).eval context row) =
      (outcomeOf (p.eval context row)).join logic (outcomeOf (q.eval context row)) := by
  cases logic with
  | and => exact outcomeOf_and _ _
  | or => exact outcomeOf_or _ _

/-- The predicates of the members, joined. -/
def compileGroup (now : Int) (parameterOffset : Nat) (fields : String → Option TableSqlField)
    (logic : Logic) (nodes : List TableFilterTreeNode) : Compile SqlPredicate := do
  return .join logic (← compileNodes now parameterOffset fields nodes)

theorem compileGroup_nil (logic : Logic) :
    compileGroup now parameterOffset fields logic [] = pure .emptyParens := by
  funext ps
  simp [compileGroup, compileNodes, SqlPredicate.join]

theorem pure_apply {α : Type} (a : α) (ps : List Value) :
    (pure a : Compile α) ps = .ok (a, ps) := rfl

theorem compileGroup_singleton (logic : Logic) (node : TableFilterTreeNode) :
    compileGroup now parameterOffset fields logic [node] =
      compileNode now parameterOffset fields node := by
  funext ps
  simp only [compileGroup, compileNodes, bind, StateT.bind, pure_apply]
  cases compileNode now parameterOffset fields node ps with
  | error e => rfl
  | ok r => rfl

/-- A group of two members or more is its first member combined with the group of the
others. -/
theorem compileGroup_cons (logic : Logic) (node node' : TableFilterTreeNode)
    (nodes : List TableFilterTreeNode) :
    compileGroup now parameterOffset fields logic (node :: node' :: nodes) = do
      let p ← compileNode now parameterOffset fields node
      let q ← compileGroup now parameterOffset fields logic (node' :: nodes)
      return .combine logic p q := by
  funext ps
  simp only [compileGroup, compileNodes, bind, StateT.bind, pure_apply, Except.bind]
  cases compileNode now parameterOffset fields node ps with
  | error e => rfl
  | ok r =>
      cases hn : compileNode now parameterOffset fields node' r.2 with
      | error e => simp only [hn]
      | ok r' =>
          simp only [hn]
          cases compileNodes now parameterOffset fields nodes r'.2 with
          | error e => rfl
          | ok r'' => cases logic <;> rfl

theorem Computes.combine {logic : Logic} {m m' : Compile SqlPredicate} {o o' : Outcome}
    (h : Computes folding parameterOffset row m o)
    (h' : Computes folding parameterOffset row m' o') :
    Computes folding parameterOffset row
      (do
        let p ← m
        let q ← m'
        return .combine logic p q) (o.join logic o') := by
  intro ps
  have hhead := h ps
  simp only [bind, StateT.bind, pure_apply, Except.bind]
  cases hm : m ps with
  | error e =>
      rw [hm] at hhead
      simp only [hhead]
      rfl
  | ok r =>
      rw [hm] at hhead
      obtain ⟨qs, hqs, heval⟩ := hhead
      have htail := h' r.2
      cases hm' : m' r.2 with
      | error e =>
          simp only [hm'] at htail ⊢
          rw [htail]
          cases o <;> rfl
      | ok r' =>
          simp only [hm'] at htail ⊢
          obtain ⟨qs', hqs', heval'⟩ := htail
          refine ⟨qs ++ qs', by rw [hqs', hqs, List.append_assoc], fun rs => ?_⟩
          have hp := heval (qs' ++ rs)
          rw [← List.append_assoc, ← hqs'] at hp
          rw [outcomeOf_combine, hp, heval' rs]

mutual

/-- A tree computes what its conditions make of the row together; an empty group is no
predicate. -/
theorem computes_node {leaf : TableFilterCondition → Outcome} :
    ∀ node : TableFilterTreeNode,
      (∀ c ∈ node.leaves, Computes folding parameterOffset row
        (compileSqlCondition now parameterOffset fields c) (leaf c)) →
      Computes folding parameterOffset row (compileNode now parameterOffset fields node)
        (node.outcomeWith leaf (fun _ => .refused))
  | .condition c, h => h c (List.mem_singleton_self c)
  | .group logic nodes, h => computes_nodes logic nodes h

theorem computes_nodes {leaf : TableFilterCondition → Outcome} (logic : Logic) :
    ∀ nodes : List TableFilterTreeNode,
      (∀ c ∈ leavesList nodes, Computes folding parameterOffset row
        (compileSqlCondition now parameterOffset fields c) (leaf c)) →
      Computes folding parameterOffset row (compileGroup now parameterOffset fields logic nodes)
        (outcomeOfGroup leaf (fun _ => .refused) logic nodes)
  | [], _ => by
      rw [compileGroup_nil]
      exact fun ps => ⟨[], by simp, fun _ => rfl⟩
  | [node], h => by
      rw [compileGroup_singleton]
      exact computes_node node fun c hc => h c (by simpa [leavesList] using hc)
  | node :: node' :: nodes, h => by
      rw [compileGroup_cons]
      exact (computes_node node fun c hc => h c (List.mem_append_left _ hc)).combine
        (computes_nodes logic (node' :: nodes) fun c hc => h c (List.mem_append_right _ hc))

end

end Sql

section Memory

variable {folding : CaseFolding} {now : Int} {fields : String → Option TableInMemoryField}
  {row : Row}

def outcomeOfMatch : Except Failure Bool → Outcome
  | .ok true => .kept
  | .ok false => .dropped
  | .error _ => .refused

def memoryLeaf (folding : CaseFolding) (now : Int) (fields : String → Option TableInMemoryField)
    (row : Row) (c : TableFilterCondition) : Outcome :=
  outcomeOfMatch (matchesMemoryCondition folding now row c fields)

/-- No member of an empty group fails, and none holds. -/
def emptyInMemory : Logic → Outcome
  | .and => .kept
  | .or => .dropped

def matchesGroup (folding : CaseFolding) (now : Int)
    (fields : String → Option TableInMemoryField) (row : Row) (logic : Logic)
    (nodes : List TableFilterTreeNode) : Except Failure Bool :=
  matchesNode folding now fields row (.group logic nodes)

theorem outcomeOfMatch_cons (logic : Logic) (node : TableFilterTreeNode)
    (nodes : List TableFilterTreeNode) :
    outcomeOfMatch (matchesGroup folding now fields row logic (node :: nodes)) =
      (outcomeOfMatch (matchesNode folding now fields row node)).join logic
        (outcomeOfMatch (matchesGroup folding now fields row logic nodes)) := by
  simp only [matchesGroup, matchesNode, matchesNodes, bind, Except.bind, pure, Except.pure]
  cases matchesNode folding now fields row node with
  | error e => rfl
  | ok b =>
      cases matchesNodes folding now fields row nodes with
      | error e => cases b <;> rfl
      | ok found =>
          cases logic with
          | and => cases b <;> cases h : found.all id <;> simp [h, outcomeOfMatch, Outcome.join]
          | or => cases b <;> cases h : found.any id <;> simp [h, outcomeOfMatch, Outcome.join]

theorem outcomeOfMatch_singleton (logic : Logic) (node : TableFilterTreeNode) :
    outcomeOfMatch (matchesGroup folding now fields row logic [node]) =
      outcomeOfMatch (matchesNode folding now fields row node) := by
  rw [outcomeOfMatch_cons]
  cases logic <;> cases outcomeOfMatch (matchesNode folding now fields row node) <;> rfl

mutual

theorem memory_node : ∀ node : TableFilterTreeNode,
    outcomeOfMatch (matchesNode folding now fields row node) =
      node.outcomeWith (memoryLeaf folding now fields row) emptyInMemory
  | .condition _ => rfl
  | .group logic nodes => memory_nodes logic nodes

theorem memory_nodes (logic : Logic) : ∀ nodes : List TableFilterTreeNode,
    outcomeOfMatch (matchesGroup folding now fields row logic nodes) =
      outcomeOfGroup (memoryLeaf folding now fields row) emptyInMemory logic nodes
  | [] => by cases logic <;> rfl
  | [node] => by
      rw [outcomeOfMatch_singleton]
      exact memory_node node
  | node :: node' :: nodes => by
      rw [outcomeOfMatch_cons, memory_node node, memory_nodes logic (node' :: nodes)]
      rfl

end

end Memory

/-! ## Trees without empty groups -/

mutual

theorem outcomeWith_congr {leaf : TableFilterCondition → Outcome} {empty empty' : Logic → Outcome} :
    ∀ node : TableFilterTreeNode, node.noEmptyGroup = true →
      node.outcomeWith leaf empty = node.outcomeWith leaf empty'
  | .condition _, _ => rfl
  | .group logic nodes, h => by
      have h' : nodes.isEmpty = false ∧ noEmptyGroups nodes = true := by
        simpa [TableFilterTreeNode.noEmptyGroup] using h
      exact outcomeOfGroup_congr logic nodes h'.1 h'.2

theorem outcomeOfGroup_congr {leaf : TableFilterCondition → Outcome}
    {empty empty' : Logic → Outcome} (logic : Logic) :
    ∀ nodes : List TableFilterTreeNode, nodes.isEmpty = false → noEmptyGroups nodes = true →
      outcomeOfGroup leaf empty logic nodes = outcomeOfGroup leaf empty' logic nodes
  | [], h, _ => by cases h
  | [node], _, h => outcomeWith_congr node (by simpa [noEmptyGroups] using h)
  | node :: node' :: nodes, _, h => by
      have h' : node.noEmptyGroup = true ∧ noEmptyGroups (node' :: nodes) = true := by
        simpa [noEmptyGroups] using h
      show (node.outcomeWith leaf empty).join logic _ = (node.outcomeWith leaf empty').join logic _
      rw [outcomeWith_congr node h'.1, outcomeOfGroup_congr logic (node' :: nodes) rfl h'.2]

end

section Empty

variable {now : Int} {parameterOffset : Nat} {fields : String → Option TableSqlField}

def Refuses (m : Compile SqlPredicate) : Prop :=
  ∀ ps, match m ps with
    | .error _ => True
    | .ok (p, _) => ∀ context row, outcomeOf (p.eval context row) = .refused

theorem Refuses.combine {logic : Logic} {m m' : Compile SqlPredicate} (h : Refuses m ∨ Refuses m') :
    Refuses (do
      let p ← m
      let q ← m'
      return .combine logic p q) := by
  intro ps
  simp only [bind, StateT.bind, pure_apply, Except.bind]
  cases hm : m ps with
  | error e => trivial
  | ok r =>
      cases hm' : m' r.2 with
      | error e => simp only [hm']
      | ok r' =>
          simp only [hm']
          intro context row
          rw [outcomeOf_combine]
          rcases h with h | h
          · have hp := h ps
            rw [hm] at hp
            rw [hp context row]
            rfl
          · have hq := h r.2
            rw [hm'] at hq
            rw [hq context row]
            cases outcomeOf (r.1.eval context row) <;> rfl

mutual

theorem refuses_node : ∀ node : TableFilterTreeNode, node.noEmptyGroup = false →
    Refuses (compileNode now parameterOffset fields node)
  | .condition _, h => by cases h
  | .group logic nodes, h => by
      refine refuses_nodes logic nodes ?_
      cases hn : nodes.isEmpty with
      | true => exact Or.inl rfl
      | false => exact Or.inr (by simpa [TableFilterTreeNode.noEmptyGroup, hn] using h)

theorem refuses_nodes (logic : Logic) : ∀ nodes : List TableFilterTreeNode,
    nodes.isEmpty = true ∨ noEmptyGroups nodes = false →
      Refuses (compileGroup now parameterOffset fields logic nodes)
  | [], _ => by
      rw [compileGroup_nil]
      exact fun _ _ _ => rfl
  | [node], h => by
      rw [compileGroup_singleton]
      exact refuses_node node (by simpa [noEmptyGroups] using h)
  | node :: node' :: nodes, h => by
      have h' : node.noEmptyGroup = false ∨ noEmptyGroups (node' :: nodes) = false := by
        rw [List.isEmpty_cons, Bool.false_eq_true, false_or, noEmptyGroups,
          Bool.and_eq_false_iff] at h
        exact h
      rw [compileGroup_cons]
      exact Refuses.combine
        (h'.imp (refuses_node node) (fun h => refuses_nodes logic (node' :: nodes) (Or.inr h)))

end

end Empty

end Wbme.TableQuery

import Wbme.TableQuery.Requests

/-!
# Normalised filter trees

A normalised tree is plain data: a root group over conditions and groups of conditions.
Written out as JSON and read again it comes back as it was.
-/

namespace Wbme.TableQuery

open Lib

theorem name_ofName (name : String) : (TableOperator.ofName name).name = name := by
  unfold TableOperator.ofName
  cases h : knownOperators.find? (fun operator => operator.name == name) with
  | none => rfl
  | some operator =>
      show operator.name = name
      simpa using List.find?_some h

/-! ## The shape of a tree -/

/-- A condition that stands for itself. -/
def TableFilterTreeNode.IsLeaf (node : TableFilterTreeNode) : Prop :=
  ∃ c, node = .condition c ∧ Named c

/-- A child of the root. -/
def TableFilterTreeNode.IsBranch (node : TableFilterTreeNode) : Prop :=
  node.IsLeaf ∨ ∃ logic conditions, node = .group logic conditions ∧ ∀ n ∈ conditions, n.IsLeaf

/-- A root group with at most one level of groups below it. -/
def TableFilterTreeNode.IsFilterTree (node : TableFilterTreeNode) : Prop :=
  ∃ logic conditions, node = .group logic conditions ∧ ∀ n ∈ conditions, n.IsBranch

theorem map_condition_isLeaf {value : Json} {node : TableFilterTreeNode}
    (h : (asCondition value).map TableFilterTreeNode.condition = .ok node) : node.IsLeaf := by
  cases hc : asCondition value with
  | error e => rw [hc] at h; cases h
  | ok c =>
      rw [hc] at h
      cases h
      exact ⟨c, rfl, asCondition_named hc⟩

theorem map_group_forall {P : TableFilterTreeNode → Prop} {logic : Logic}
    {f : Json → Except Failure TableFilterTreeNode} (hf : ∀ x node, f x = .ok node → P node)
    {values : List Json} {node : TableFilterTreeNode}
    (h : (values.mapM f).map (TableFilterTreeNode.group logic) = .ok node) :
    ∃ nodes, node = .group logic nodes ∧ ∀ n ∈ nodes, P n := by
  cases hm : values.mapM f with
  | error e => rw [hm] at h; cases h
  | ok nodes =>
      rw [hm] at h
      cases h
      refine ⟨nodes, rfl, ?_⟩
      intro n hn
      obtain ⟨x, -, hx⟩ := mem_mapM hm hn
      exact hf x n hx

variable {node : TableFilterTreeNode}

variable {value : Json} {tree : TableFilterTreeNode}

theorem asLeaf_isLeaf (h : asLeaf value = .ok node) : node.IsLeaf := by
  unfold asLeaf at h
  split at h
  · cases h
  · exact map_condition_isLeaf h

theorem asTreeNode_isBranch (h : asTreeNode value = .ok node) : node.IsBranch := by
  unfold asTreeNode at h
  split at h
  · obtain ⟨nodes, hnode, hleaves⟩ := map_group_forall (fun _ _ => asLeaf_isLeaf) h
    exact .inr ⟨_, nodes, hnode, hleaves⟩
  · exact .inl (map_condition_isLeaf h)

theorem asLegacyGroup_isBranch (h : asLegacyGroup value = .ok node) : node.IsBranch := by
  unfold asLegacyGroup at h
  split at h
  · split at h
    · obtain ⟨nodes, hnode, hleaves⟩ := map_group_forall (fun _ _ => map_condition_isLeaf) h
      exact .inr ⟨_, nodes, hnode, hleaves⟩
    · cases h
  · cases h

theorem normalizeTableFilters_isFilterTree {raw : Option Json}
    (h : normalizeTableFilters raw = .ok tree) : tree.IsFilterTree := by
  unfold normalizeTableFilters at h
  split at h
  · split at h
    · exact ⟨_, map_group_forall (fun _ _ => asTreeNode_isBranch) h⟩
    · split at h
      · exact ⟨_, map_group_forall (fun _ _ => asLegacyGroup_isBranch) h⟩
      · cases h
  · cases h

/-! ## Written out -/

def logicText : Logic → String
  | .and => "AND"
  | .or => "OR"

def TableFilterCondition.toJson (c : TableFilterCondition) : Json :=
  .obj ([("field", .str c.field), ("operator", .str c.operator.name), ("value", .str c.value)] ++
    match c.valueEnd with
    | some valueEnd => [("valueEnd", .str valueEnd)]
    | none => [])

mutual

def TableFilterTreeNode.toJson : TableFilterTreeNode → Json
  | .condition c => c.toJson
  | .group logic conditions =>
      .obj [("logic", .str (logicText logic)), ("conditions", .arr (nodesToJson conditions))]

def nodesToJson : List TableFilterTreeNode → List Json
  | [] => []
  | node :: nodes => node.toJson :: nodesToJson nodes

end

/-! ## Read again -/

theorem asCondition_toJson {c : TableFilterCondition} (h : Named c) :
    asCondition c.toJson = .ok c := by
  obtain ⟨field, operator, value, valueEnd⟩ := c
  have hop : TableOperator.ofName operator.name = operator := h
  cases valueEnd <;> simp [asCondition, TableFilterCondition.toJson, Json.field?, hop]

theorem conditionsOf_condition (c : TableFilterCondition) : conditionsOf c.toJson = none := by
  obtain ⟨field, operator, value, valueEnd⟩ := c
  cases valueEnd <;> rfl

variable (logic : Logic)

theorem field_conditions (values : List Json) :
    Json.field? [("logic", .str (logicText logic)), ("conditions", .arr values)] "conditions" =
      some (.arr values) := rfl

theorem conditionsOf_group (conditions : List TableFilterTreeNode) :
    conditionsOf (TableFilterTreeNode.group logic conditions).toJson =
      some ([("logic", .str (logicText logic)), ("conditions", .arr (nodesToJson conditions))],
        nodesToJson conditions) := rfl

theorem logicOf_group (values : List Json) :
    logicOf [("logic", .str (logicText logic)), ("conditions", .arr values)] = logic := by
  cases logic <;> rfl

theorem asLeaf_toJson (h : node.IsLeaf) : asLeaf node.toJson = .ok node := by
  obtain ⟨c, rfl, hc⟩ := h
  simp only [asLeaf, TableFilterTreeNode.toJson, conditionsOf_condition, asCondition_toJson hc,
    Except.map]

theorem mapM_nodesToJson {f : Json → Except Failure TableFilterTreeNode}
    {nodes : List TableFilterTreeNode} (h : ∀ n ∈ nodes, f n.toJson = .ok n) :
    (nodesToJson nodes).mapM f = .ok nodes := by
  induction nodes with
  | nil => rfl
  | cons node nodes ih =>
      have hrest := ih fun n hn => h n (List.mem_cons_of_mem node hn)
      simp only [nodesToJson, List.mapM_cons, h node List.mem_cons_self, hrest, bind,
        Except.bind, pure, Except.pure]

theorem asTreeNode_toJson (h : node.IsBranch) : asTreeNode node.toJson = .ok node := by
  rcases h with ⟨c, rfl, hc⟩ | ⟨logic, conditions, rfl, hleaves⟩
  · simp only [asTreeNode, TableFilterTreeNode.toJson, conditionsOf_condition,
      asCondition_toJson hc, Except.map]
  · have hmembers := mapM_nodesToJson fun n hn => asLeaf_toJson (hleaves n hn)
    simp only [asTreeNode, conditionsOf_group, logicOf_group, hmembers, Except.map]

theorem normalizeTableFilters_toJson (h : tree.IsFilterTree) :
    normalizeTableFilters (some tree.toJson) = .ok tree := by
  obtain ⟨logic, conditions, rfl, hbranches⟩ := h
  have hmembers := mapM_nodesToJson fun n hn => asTreeNode_toJson (hbranches n hn)
  simp only [normalizeTableFilters, TableFilterTreeNode.toJson, field_conditions, logicOf_group,
    hmembers, Except.map]

end Wbme.TableQuery

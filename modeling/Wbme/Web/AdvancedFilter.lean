import Wbme.Menu.EditorState
import Wbme.TableQuery.Normalization

/-!
# The advanced filter

The filter tree that a list page edits, how it is pruned and sent, and what the service
reads from it. The editing keys and the labels of remote options stay on the page.
-/

namespace Wbme.Web

open TableQuery

/-! ## The tree of the editor -/

structure FilterCondition where
  id : String
  field : String
  operator : String
  value : String
  valueEnd : Option String
  valueLabel : Option String

inductive FilterNode
  | condition (c : FilterCondition)
  | group (id : String) (logic : Logic) (children : List FilterNode)

structure FilterConditionGroup where
  id : String
  logic : Logic
  children : List FilterNode

def noValueOperators : List String :=
  ["IS_EMPTY", "IS_NOT_EMPTY", "TODAY", "THIS_WEEK", "THIS_MONTH", "THIS_YEAR", "LAST_7_DAYS",
    "LAST_30_DAYS"]

def isConditionPopulated (c : FilterCondition) : Bool :=
  Menu.trim c.value != "" || noValueOperators.contains c.operator

def FilterNode.populated? : FilterNode → Option FilterCondition
  | .condition c => if isConditionPopulated c then some c else none
  | .group .. => none

/-- A child of the root after pruning; a subgroup keeps only conditions. -/
def pruneChild : FilterNode → Option FilterNode
  | .condition c => if isConditionPopulated c then some (.condition c) else none
  | .group id logic children =>
      let conditions := children.filterMap FilterNode.populated?
      if conditions.isEmpty then none else some (.group id logic (conditions.map .condition))

def pruneFilterTree (root : FilterConditionGroup) : FilterConditionGroup :=
  { root with children := root.children.filterMap pruneChild }

/-! ## What is sent -/

structure FilterTreePayloadCondition where
  field : String
  operator : String
  value : String
  valueEnd : Option String

inductive FilterTreePayloadNode
  | condition (c : FilterTreePayloadCondition)
  | group (logic : Logic) (conditions : List FilterTreePayloadNode)

structure FilterTreePayloadGroup where
  logic : Logic
  conditions : List FilterTreePayloadNode

def toPayloadCondition (c : FilterCondition) : FilterTreePayloadCondition :=
  { field := c.field, operator := c.operator, value := c.value, valueEnd := c.valueEnd }

def FilterNode.condition? : FilterNode → Option FilterCondition
  | .condition c => some c
  | .group .. => none

def toPayloadNode : FilterNode → FilterTreePayloadNode
  | .condition c => .condition (toPayloadCondition c)
  | .group _ logic children =>
      .group logic
        ((children.filterMap FilterNode.condition?).map fun c => .condition (toPayloadCondition c))

/-- `undefined` when no condition is left. -/
def buildFilterTreePayload (root : FilterConditionGroup) : Option FilterTreePayloadGroup :=
  let pruned := pruneFilterTree root
  if pruned.children.isEmpty then none
  else some { logic := pruned.logic, conditions := pruned.children.map toPayloadNode }

/-! ## The encoded payload -/

def FilterTreePayloadCondition.toJson (c : FilterTreePayloadCondition) : Json :=
  .obj ([("field", .str c.field), ("operator", .str c.operator), ("value", .str c.value)] ++
    match c.valueEnd with
    | some valueEnd => [("valueEnd", .str valueEnd)]
    | none => [])

mutual

def FilterTreePayloadNode.toJson : FilterTreePayloadNode → Json
  | .condition c => c.toJson
  | .group logic conditions =>
      .obj [("logic", .str (logicText logic)), ("conditions", .arr (payloadListToJson conditions))]

def payloadListToJson : List FilterTreePayloadNode → List Json
  | [] => []
  | node :: nodes => node.toJson :: payloadListToJson nodes

end

def FilterTreePayloadGroup.toJson (group : FilterTreePayloadGroup) : Json :=
  (FilterTreePayloadNode.group group.logic group.conditions).toJson

/-! ## What the service reads -/

/-- A condition without its editing key and label. -/
def FilterCondition.erased (c : FilterCondition) : TableFilterCondition :=
  { field := c.field, operator := .ofName c.operator, value := c.value, valueEnd := c.valueEnd }

mutual

def FilterNode.erased : FilterNode → TableFilterTreeNode
  | .condition c => .condition c.erased
  | .group _ logic children => .group logic (erasedList children)

def erasedList : List FilterNode → List TableFilterTreeNode
  | [] => []
  | node :: nodes => node.erased :: erasedList nodes

end

/-- A tree without its editing keys and labels. -/
def FilterConditionGroup.erased (root : FilterConditionGroup) : TableFilterTreeNode :=
  .group root.logic (erasedList root.children)

theorem erasedList_eq_map (nodes : List FilterNode) :
    erasedList nodes = nodes.map FilterNode.erased := by
  induction nodes with
  | nil => rfl
  | cons node nodes ih => rw [erasedList, ih, List.map_cons]

theorem nodesToJson_eq_map (nodes : List TableFilterTreeNode) :
    nodesToJson nodes = nodes.map TableFilterTreeNode.toJson := by
  induction nodes with
  | nil => rfl
  | cons node nodes ih => rw [nodesToJson, ih, List.map_cons]

theorem payloadListToJson_eq_map (nodes : List FilterTreePayloadNode) :
    payloadListToJson nodes = nodes.map FilterTreePayloadNode.toJson := by
  induction nodes with
  | nil => rfl
  | cons node nodes ih => rw [payloadListToJson, ih, List.map_cons]

theorem toPayloadCondition_toJson (c : FilterCondition) :
    (toPayloadCondition c).toJson = c.erased.toJson := by
  cases hend : c.valueEnd with
  | none =>
      simp [FilterTreePayloadCondition.toJson, toPayloadCondition, TableFilterCondition.toJson,
        FilterCondition.erased, name_ofName, hend]
  | some valueEnd =>
      simp [FilterTreePayloadCondition.toJson, toPayloadCondition, TableFilterCondition.toJson,
        FilterCondition.erased, name_ofName, hend]

def IsPruned : FilterNode → Prop
  | .condition c => isConditionPopulated c = true
  | .group _ _ children =>
      ∃ conditions : List FilterCondition, conditions ≠ [] ∧
        (∀ c ∈ conditions, isConditionPopulated c = true) ∧
        children = conditions.map .condition

theorem populated_of_populated? {node : FilterNode} {c : FilterCondition}
    (h : node.populated? = some c) : isConditionPopulated c = true := by
  cases node with
  | condition c' =>
      by_cases hc : isConditionPopulated c' = true
      · rw [FilterNode.populated?, if_pos hc] at h
        cases h
        exact hc
      · rw [FilterNode.populated?, if_neg hc] at h
        cases h
  | group => cases h

theorem pruneChild_isPruned {node child : FilterNode} (h : pruneChild node = some child) :
    IsPruned child := by
  cases node with
  | condition c =>
      by_cases hc : isConditionPopulated c = true
      · rw [pruneChild, if_pos hc] at h
        cases h
        exact hc
      · rw [pruneChild, if_neg hc] at h
        cases h
  | group id logic children =>
      by_cases hempty : (children.filterMap FilterNode.populated?).isEmpty = true
      · simp only [pruneChild, if_pos hempty] at h
        cases h
      · simp only [pruneChild, if_neg hempty] at h
        cases h
        refine ⟨_, fun h => hempty (by simp [h]), ?_, rfl⟩
        intro c hc
        obtain ⟨member, -, hmember⟩ := List.mem_filterMap.mp hc
        exact populated_of_populated? hmember

variable {root : FilterConditionGroup}

theorem isPruned_of_mem {child : FilterNode} (h : child ∈ (pruneFilterTree root).children) :
    IsPruned child := by
  obtain ⟨node, -, hnode⟩ := List.mem_filterMap.mp h
  exact pruneChild_isPruned hnode

theorem conditions_of_map (conditions : List FilterCondition) :
    (conditions.map FilterNode.condition).filterMap FilterNode.condition? = conditions := by
  induction conditions with
  | nil => rfl
  | cons c conditions ih => simp [FilterNode.condition?, ih]

theorem toPayloadNode_toJson {child : FilterNode} (h : IsPruned child) :
    (toPayloadNode child).toJson = child.erased.toJson := by
  cases child with
  | condition c => exact toPayloadCondition_toJson c
  | group id logic children =>
      obtain ⟨conditions, -, -, rfl⟩ := h
      simp only [toPayloadNode, conditions_of_map, FilterTreePayloadNode.toJson,
        payloadListToJson_eq_map, FilterNode.erased, erasedList_eq_map, TableFilterTreeNode.toJson,
        nodesToJson_eq_map, List.map_map]
      congr 5
      apply List.map_congr_left
      intro c hc
      exact toPayloadCondition_toJson c

theorem erased_isBranch {child : FilterNode} (h : IsPruned child) : child.erased.IsBranch := by
  cases child with
  | condition c => exact .inl ⟨c.erased, rfl, ofName_name_ofName _⟩
  | group id logic children =>
      obtain ⟨conditions, -, -, rfl⟩ := h
      refine .inr ⟨logic, _, rfl, ?_⟩
      intro node hnode
      rw [erasedList_eq_map, List.map_map] at hnode
      obtain ⟨c, -, rfl⟩ := List.mem_map.mp hnode
      exact ⟨c.erased, rfl, ofName_name_ofName _⟩

theorem pruned_isFilterTree (root : FilterConditionGroup) :
    (pruneFilterTree root).erased.IsFilterTree := by
  refine ⟨_, _, rfl, ?_⟩
  intro node hnode
  rw [erasedList_eq_map] at hnode
  obtain ⟨child, hchild, rfl⟩ := List.mem_map.mp hnode
  exact erased_isBranch (isPruned_of_mem hchild)

theorem buildFilterTreePayload_eq_none :
    buildFilterTreePayload root = none ↔ (pruneFilterTree root).children = [] := by
  unfold buildFilterTreePayload
  by_cases h : (pruneFilterTree root).children.isEmpty = true
  · simp only [if_pos h, true_iff]
    exact List.isEmpty_iff.mp h
  · simp only [if_neg h, reduceCtorEq, false_iff]
    exact fun hnil => h (List.isEmpty_iff.mpr hnil)

theorem buildFilterTreePayload_toJson {payload : FilterTreePayloadGroup}
    (h : buildFilterTreePayload root = some payload) :
    payload.toJson = (pruneFilterTree root).erased.toJson := by
  unfold buildFilterTreePayload at h
  by_cases hempty : (pruneFilterTree root).children.isEmpty = true
  · simp only [if_pos hempty] at h
    cases h
  · simp only [if_neg hempty] at h
    cases h
    simp only [FilterTreePayloadGroup.toJson, FilterTreePayloadNode.toJson,
      payloadListToJson_eq_map, FilterConditionGroup.erased, TableFilterTreeNode.toJson,
      nodesToJson_eq_map, erasedList_eq_map, List.map_map]
    congr 5
    apply List.map_congr_left
    intro child hchild
    exact toPayloadNode_toJson (isPruned_of_mem hchild)

/-! ## Sent and read -/

/-- A tree of which pruning leaves something is sent as what it is after pruning, and the
service reads that tree; otherwise the parameter is left out and nothing is filtered. What
the service has read it reads again as the same tree, and no operator loses its name. -/
theorem payload_normalizes (root : FilterConditionGroup) :
    (match buildFilterTreePayload root with
      | some payload =>
          (pruneFilterTree root).children ≠ [] ∧
            normalizeTableFilters (some payload.toJson) = .ok (pruneFilterTree root).erased
      | none => (pruneFilterTree root).children = [] ∧ parseFilters none = .ok none) ∧
      (∀ raw tree, normalizeTableFilters raw = .ok tree →
        normalizeTableFilters (some tree.toJson) = .ok tree) ∧
      ∀ name, (TableOperator.ofName name).name = name := by
  refine ⟨?_, fun raw tree h =>
    normalizeTableFilters_toJson (normalizeTableFilters_isFilterTree h), name_ofName⟩
  cases h : buildFilterTreePayload root with
  | none => exact ⟨buildFilterTreePayload_eq_none.mp h, rfl⟩
  | some payload =>
      refine ⟨fun hnil => ?_, ?_⟩
      · rw [buildFilterTreePayload_eq_none.mpr hnil] at h
        cases h
      · rw [buildFilterTreePayload_toJson h]
        exact normalizeTableFilters_toJson (pruned_isFilterTree root)

/-- The group that a list page starts with. -/
def emptyRoot : FilterConditionGroup := { id := "", logic := .and, children := [] }

/-- A filter in the older format, and the tree that it is read as. -/
theorem payload_normalizes_groups :
    normalizeTableFilters (some (TableFilterTreeNode.group .or [.group .and
      [.condition ⟨"name", .contains, "a", none⟩]]).toJson) =
      .ok (.group .or [.group .and [.condition ⟨"name", .contains, "a", none⟩]]) :=
  (payload_normalizes emptyRoot).2.1
    (some (.obj [("logic", .str "OR"), ("groups", .arr [.obj [("logic", .str "AND"),
      ("conditions", .arr [.obj [("field", .str "name"), ("operator", .str "CONTAINS"),
        ("value", .str "a")]])]])])) _ rfl

/-- There is no JSON for the payload of an empty group, and what is no JSON is refused. -/
theorem payload_of_emptyRoot :
    ¬ ∃ tree, normalizeTableFilters ((buildFilterTreePayload emptyRoot).map
      FilterTreePayloadGroup.toJson) = .ok tree := by
  rintro ⟨tree, h⟩
  cases h

end Wbme.Web

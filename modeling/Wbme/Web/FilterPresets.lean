import Wbme.Web.AdvancedFilter

/-!
# Filter presets

What a saved preset is read as when it is applied. A preset holds a filter tree as it is
sent; an older one holds filters, groups of filters and how the filters are joined.
-/

namespace Wbme.Web

open TableQuery

/-- Computations that draw editing keys; the state counts the keys drawn so far. -/
abbrev Fresh := StateM Nat

/-- The next of the random keys. -/
def freshId (randomUUID : Nat → String) : Fresh String := fun n => (randomUUID n, n + 1)

/-- What a computation returns, whichever keys were drawn before. -/
def Fresh.Gives {α : Type} (x : Fresh α) (P : α → Prop) : Prop := ∀ n, P (x n).1

section Gives

variable {α β : Type} {x : Fresh α} {P Q : α → Prop}

theorem Fresh.gives_pure {a : α} (h : P a) : Fresh.Gives (pure a) P := fun _ => h

theorem Fresh.Gives.bind {f : α → Fresh β} {R : β → Prop} (hx : x.Gives P)
    (hf : ∀ a, P a → (f a).Gives R) : Fresh.Gives (x >>= f) R :=
  fun n => hf (x n).1 (hx n) (x n).2

theorem Fresh.Gives.map {f : α → β} {R : β → Prop} (hx : x.Gives P) (hf : ∀ a, P a → R (f a)) :
    Fresh.Gives (f <$> x) R :=
  fun n => hf (x n).1 (hx n)

theorem Fresh.gives_mapM {γ : Type} {xs : List γ} {f : γ → Fresh α} {v : α → β} {g : γ → β}
    (h : ∀ c, (f c).Gives fun a => v a = g c) :
    Fresh.Gives (xs.mapM f) fun ys => ys.map v = xs.map g := by
  induction xs with
  | nil => exact Fresh.gives_pure rfl
  | cons c xs ih =>
      rw [List.mapM_cons]
      refine (h c).bind fun a ha => ih.bind fun ys hys => Fresh.gives_pure ?_
      rw [List.map_cons, List.map_cons, ha, hys]

end Gives

/-! ## Reading a preset -/

def textField (record : List (String × Json)) (name : String) : Option String :=
  match Json.field? record name with
  | some (.str text) => some text
  | _ => none

def arrayField (record : List (String × Json)) (name : String) : List Json :=
  match Json.field? record name with
  | some (.arr items) => items
  | _ => []

def toEditableCondition (randomUUID : Nat → String) (raw : Json) :
    Fresh (Option FilterCondition) :=
  match raw with
  | .obj record =>
      match textField record "field", textField record "operator" with
      | some field, some operator => do
          let id ← freshId randomUUID
          return some {
            id := id
            field := field
            operator := operator
            value := (textField record "value").getD ""
            valueEnd := textField record "valueEnd"
            valueLabel := textField record "valueLabel" }
      | _, _ => return none
  | _ => return none

def editableGroup (randomUUID : Nat → String)
    (nested : List (String × Json) → Fresh (Option FilterNode)) (raw : List (String × Json)) :
    Fresh FilterConditionGroup := do
  let children ← (arrayField raw "conditions").mapM fun item =>
    match conditionsOf item with
    | some (group, _) => nested group
    | none => (Option.map .condition) <$> toEditableCondition randomUUID item
  let id ← freshId randomUUID
  return { id := id, logic := logicOf raw, children := children.filterMap fun child => child }

/-- Groups are allowed in the root only, and left out elsewhere. -/
def toEditableGroup (randomUUID : Nat → String) (raw : List (String × Json))
    (allowGroups : Bool) : Fresh FilterConditionGroup :=
  if allowGroups then
    editableGroup randomUUID (fun item => do
      let group ← editableGroup randomUUID (fun _ => return none) item
      return some (.group group.id group.logic group.children)) raw
  else editableGroup randomUUID (fun _ => return none) raw

inductive SortDirection
  | asc
  | desc

structure SortCondition where
  field : String
  direction : SortDirection

def normalizeSort (item : Json) : Option SortCondition :=
  match item with
  | .obj record =>
      match textField record "field", textField record "direction" with
      | some field, some "ASC" => some { field := field, direction := .asc }
      | some field, some "DESC" => some { field := field, direction := .desc }
      | _, _ => none
  | _ => none

def normalizeSorts (raw : Option Json) : List SortCondition :=
  match raw with
  | some (.arr items) => items.filterMap normalizeSort
  | _ => []

def toEditableConditions (randomUUID : Nat → String) (items : List Json) :
    Fresh (List FilterCondition) :=
  (List.filterMap fun c => c) <$> items.mapM (toEditableCondition randomUUID)

/-- A group of an older preset; its conditions are joined by "and". -/
def toLegacyGroup (randomUUID : Nat → String) (raw : Json) : Fresh (Option FilterNode) :=
  match raw with
  | .obj record => do
      let conditions ← toEditableConditions randomUUID (arrayField record "conditions")
      if conditions.isEmpty then return none
      else
        let id ← freshId randomUUID
        return some (.group id .and (conditions.map .condition))
  | _ => return none

/-- A preset of the older format. -/
def legacyTree (randomUUID : Nat → String) (content : List (String × Json)) :
    Fresh FilterConditionGroup := do
  let filters ← toEditableConditions randomUUID (arrayField content "filters")
  let groups ← (List.filterMap fun g => g) <$>
    (arrayField content "filterGroups").mapM (toLegacyGroup randomUUID)
  let logic : Logic := if textField content "filterLogic" = some "OR" then .or else .and
  if groups.isEmpty then
    let id ← freshId randomUUID
    return { id := id, logic := logic, children := filters.map .condition }
  else
    let main ← (match logic with
      | .and =>
          if filters.isEmpty then return []
          else do
            let id ← freshId randomUUID
            return [FilterNode.group id .and (filters.map .condition)]
      | .or => filters.mapM fun filter => do
          let id ← freshId randomUUID
          return FilterNode.group id .and [.condition filter])
    let id ← freshId randomUUID
    return { id := id, logic := .or, children := main ++ groups }

def isArray : Option Json → Bool
  | some (.arr _) => true
  | _ => false

def createEmptyRootGroup (randomUUID : Nat → String) : Fresh FilterConditionGroup := do
  let id ← freshId randomUUID
  return { id := id, logic := .and, children := [] }

def normalizePresetContent (randomUUID : Nat → String) (content : Option Json) :
    Fresh (FilterConditionGroup × List SortCondition) :=
  match content with
  | some (.obj record) => do
      let sorts := normalizeSorts (Json.field? record "sorts")
      match Json.field? record "filterTree" with
      | some (.obj filterTree) => return (← toEditableGroup randomUUID filterTree true, sorts)
      | _ =>
          if isArray (Json.field? record "filters") || isArray (Json.field? record "filterGroups")
          then return (← legacyTree randomUUID record, sorts)
          else return (← createEmptyRootGroup randomUUID, sorts)
  | _ => do return (← createEmptyRootGroup randomUUID, [])

/-! ## Trees without editing keys -/

mutual

def FilterNode.plain : FilterNode → FilterTreePayloadNode
  | .condition c => .condition (toPayloadCondition c)
  | .group _ logic children => .group logic (plainList children)

def plainList : List FilterNode → List FilterTreePayloadNode
  | [] => []
  | node :: nodes => node.plain :: plainList nodes

end

theorem plainList_eq_map (nodes : List FilterNode) :
    plainList nodes = nodes.map FilterNode.plain := by
  induction nodes with
  | nil => rfl
  | cons node nodes ih => rw [plainList, ih, List.map_cons]

def FilterTreePayloadCondition.isPopulated (c : FilterTreePayloadCondition) : Bool :=
  Menu.trim c.value != "" || noValueOperators.contains c.operator

def FilterTreePayloadNode.populated? : FilterTreePayloadNode → Option FilterTreePayloadCondition
  | .condition c => if c.isPopulated then some c else none
  | .group .. => none

/-- What pruning leaves of a child of the root. -/
def FilterTreePayloadNode.pruned : FilterTreePayloadNode → Option FilterTreePayloadNode
  | .condition c => if c.isPopulated then some (.condition c) else none
  | .group logic nodes =>
      let conditions := nodes.filterMap FilterTreePayloadNode.populated?
      if conditions.isEmpty then none else some (.group logic (conditions.map .condition))

def sent (logic : Logic) (nodes : List FilterTreePayloadNode) : Option FilterTreePayloadGroup :=
  let kept := nodes.filterMap FilterTreePayloadNode.pruned
  if kept.isEmpty then none else some { logic := logic, conditions := kept }

theorem populated?_plain (node : FilterNode) :
    node.plain.populated? = node.populated?.map toPayloadCondition := by
  cases node with
  | condition c =>
      show (if isConditionPopulated c then some (toPayloadCondition c) else none) =
        (if isConditionPopulated c then some c else none).map toPayloadCondition
      split <;> rfl
  | group => rfl

theorem filterMap_populated?_plain (nodes : List FilterNode) :
    (plainList nodes).filterMap FilterTreePayloadNode.populated? =
      (nodes.filterMap FilterNode.populated?).map toPayloadCondition := by
  rw [plainList_eq_map, List.filterMap_map, List.map_filterMap]
  apply List.filterMap_congr
  intro node _
  exact populated?_plain node

theorem pruned_plain (node : FilterNode) :
    node.plain.pruned = (pruneChild node).map toPayloadNode := by
  cases node with
  | condition c =>
      show (if isConditionPopulated c then some (FilterTreePayloadNode.condition _) else none) =
        (if isConditionPopulated c then some (FilterNode.condition c) else none).map toPayloadNode
      split <;> rfl
  | group id logic children =>
      simp only [FilterNode.plain, FilterTreePayloadNode.pruned, filterMap_populated?_plain,
        pruneChild, List.isEmpty_map]
      split
      · rfl
      · simp only [Option.map_some, toPayloadNode, conditions_of_map, List.map_map]
        rfl

theorem buildFilterTreePayload_eq_sent (root : FilterConditionGroup) :
    buildFilterTreePayload root = sent root.logic (root.children.map FilterNode.plain) := by
  have hkept : (root.children.map FilterNode.plain).filterMap FilterTreePayloadNode.pruned =
      (pruneFilterTree root).children.map toPayloadNode := by
    rw [List.filterMap_map, pruneFilterTree, List.map_filterMap]
    apply List.filterMap_congr
    intro node _
    exact pruned_plain node
  simp only [sent, hkept, List.isEmpty_map, buildFilterTreePayload]
  rfl

/-! ## What a preset is read as -/

/-- A readable condition, without an editing key. -/
def readCondition (raw : Json) : Option FilterTreePayloadCondition :=
  match raw with
  | .obj record =>
      match textField record "field", textField record "operator" with
      | some field, some operator => some {
          field := field
          operator := operator
          value := (textField record "value").getD ""
          valueEnd := textField record "valueEnd" }
      | _, _ => none
  | _ => none

/-- A member of a group; `nested` says what becomes of a group in it. -/
def readChild (nested : List (String × Json) → Option FilterTreePayloadNode) (item : Json) :
    Option FilterTreePayloadNode :=
  match conditionsOf item with
  | some (group, _) => nested group
  | none => (readCondition item).map .condition

/-- A group below the root. -/
def readSubgroup (group : List (String × Json)) : FilterTreePayloadNode :=
  .group (logicOf group) ((arrayField group "conditions").filterMap (readChild fun _ => none))

def readRoot (group : List (String × Json)) : List FilterTreePayloadNode :=
  (arrayField group "conditions").filterMap (readChild fun item => some (readSubgroup item))

section Reading

variable (randomUUID : Nat → String)

theorem toEditableCondition_gives (raw : Json) :
    (toEditableCondition randomUUID raw).Gives fun c =>
      c.map toPayloadCondition = readCondition raw := by
  cases raw with
  | obj record =>
      simp only [toEditableCondition, readCondition]
      split
      · exact fun _ => rfl
      · exact fun _ => rfl
  | _ => exact fun _ => rfl

theorem map_filterMap_self {α β : Type} (f : α → β) (xs : List (Option α)) :
    (xs.filterMap fun x => x).map f = (xs.map (Option.map f)).filterMap fun x => x := by
  rw [List.map_filterMap, List.filterMap_map]
  rfl

theorem filterMap_self_map {α β : Type} (g : α → Option β) (xs : List α) :
    (xs.map g).filterMap (fun x => x) = xs.filterMap g := by
  rw [List.filterMap_map]
  rfl

theorem editableGroup_gives {nested : List (String × Json) → Fresh (Option FilterNode)}
    {r : List (String × Json) → Option FilterTreePayloadNode}
    (h : ∀ item, (nested item).Gives fun node => node.map FilterNode.plain = r item)
    (raw : List (String × Json)) :
    (editableGroup randomUUID nested raw).Gives fun group =>
      group.logic = logicOf raw ∧
        group.children.map FilterNode.plain =
          (arrayField raw "conditions").filterMap (readChild r) := by
  unfold editableGroup
  refine (Fresh.gives_mapM (v := Option.map FilterNode.plain) (g := readChild r)
    fun item => ?_).bind fun children hchildren n => ?_
  · unfold readChild
    cases conditionsOf item with
    | some pair => exact h pair.1
    | none =>
        refine (toEditableCondition_gives randomUUID item).map fun c hc => ?_
        rw [← hc, Option.map_map, Option.map_map]
        rfl
  · refine ⟨rfl, ?_⟩
    show (children.filterMap fun child => child).map FilterNode.plain = _
    rw [map_filterMap_self, hchildren, filterMap_self_map]

theorem toEditableGroup_gives (raw : List (String × Json)) :
    (toEditableGroup randomUUID raw true).Gives fun group =>
      group.logic = logicOf raw ∧ group.children.map FilterNode.plain = readRoot raw := by
  refine editableGroup_gives randomUUID (fun item => ?_) raw
  refine (editableGroup_gives randomUUID (r := fun _ => none) (fun _ _ => rfl) item).bind
    fun group hgroup => Fresh.gives_pure ?_
  show some (FilterTreePayloadNode.group group.logic (plainList group.children)) =
    some (readSubgroup item)
  rw [plainList_eq_map, hgroup.1, hgroup.2, readSubgroup]

end Reading

/-! ## A saved tree -/

def IsKept : FilterTreePayloadNode → Prop
  | .condition c => c.isPopulated = true
  | .group _ nodes =>
      ∃ conditions : List FilterTreePayloadCondition, conditions ≠ [] ∧
        (∀ c ∈ conditions, c.isPopulated = true) ∧ nodes = conditions.map .condition

theorem populated_of_populated?_node {node : FilterTreePayloadNode}
    {c : FilterTreePayloadCondition} (h : node.populated? = some c) : c.isPopulated = true := by
  cases node with
  | condition c' =>
      by_cases hc : c'.isPopulated = true
      · rw [FilterTreePayloadNode.populated?, if_pos hc] at h
        cases h
        exact hc
      · rw [FilterTreePayloadNode.populated?, if_neg hc] at h
        cases h
  | group => cases h

theorem filterMap_populated?_condition {conditions : List FilterTreePayloadCondition}
    (h : ∀ c ∈ conditions, c.isPopulated = true) :
    (conditions.map FilterTreePayloadNode.condition).filterMap FilterTreePayloadNode.populated? =
      conditions := by
  induction conditions with
  | nil => rfl
  | cons c conditions ih =>
      have hc := h c List.mem_cons_self
      have hrest := ih fun c' hc' => h c' (List.mem_cons_of_mem c hc')
      rw [List.map_cons, List.filterMap_cons, FilterTreePayloadNode.populated?, if_pos hc]
      show c :: _ = c :: conditions
      rw [hrest]

theorem pruned_isKept {node kept : FilterTreePayloadNode} (h : node.pruned = some kept) :
    IsKept kept := by
  cases node with
  | condition c =>
      by_cases hc : c.isPopulated = true
      · rw [FilterTreePayloadNode.pruned, if_pos hc] at h
        cases h
        exact hc
      · rw [FilterTreePayloadNode.pruned, if_neg hc] at h
        cases h
  | group logic nodes =>
      by_cases hempty : (nodes.filterMap FilterTreePayloadNode.populated?).isEmpty = true
      · simp only [FilterTreePayloadNode.pruned, if_pos hempty] at h
        cases h
      · simp only [FilterTreePayloadNode.pruned, if_neg hempty] at h
        cases h
        refine ⟨_, fun h => hempty (by simp [h]), ?_, rfl⟩
        intro c hc
        obtain ⟨member, -, hmember⟩ := List.mem_filterMap.mp hc
        exact populated_of_populated?_node hmember

theorem pruned_of_isKept {node : FilterTreePayloadNode} (h : IsKept node) :
    node.pruned = some node := by
  cases node with
  | condition c => exact if_pos h
  | group logic nodes =>
      obtain ⟨conditions, hne, hpopulated, rfl⟩ := h
      have hkept := filterMap_populated?_condition hpopulated
      simp only [FilterTreePayloadNode.pruned, hkept]
      rw [if_neg fun hempty => hne (List.isEmpty_iff.mp hempty)]

theorem readCondition_toJson (c : FilterTreePayloadCondition) :
    readCondition c.toJson = some c := by
  obtain ⟨field, operator, value, valueEnd⟩ := c
  cases valueEnd <;> rfl

theorem readChild_condition (nested : List (String × Json) → Option FilterTreePayloadNode)
    (c : FilterTreePayloadCondition) : readChild nested c.toJson = some (.condition c) := by
  have hgroup : conditionsOf c.toJson = none := by
    obtain ⟨field, operator, value, valueEnd⟩ := c
    cases valueEnd <;> rfl
  simp only [readChild, hgroup, readCondition_toJson, Option.map_some]

theorem filterMap_toJson {f : Json → Option FilterTreePayloadNode}
    {nodes : List FilterTreePayloadNode} (h : ∀ node ∈ nodes, f node.toJson = some node) :
    (payloadListToJson nodes).filterMap f = nodes := by
  induction nodes with
  | nil => rfl
  | cons node nodes ih =>
      have hrest := ih fun n hn => h n (List.mem_cons_of_mem node hn)
      rw [payloadListToJson, List.filterMap_cons, h node List.mem_cons_self]
      show node :: _ = node :: nodes
      rw [hrest]

theorem readChild_toJson {node : FilterTreePayloadNode} (h : IsKept node) :
    readChild (fun item => some (readSubgroup item)) node.toJson = some node := by
  cases node with
  | condition c => exact readChild_condition _ c
  | group logic nodes =>
      obtain ⟨conditions, -, -, rfl⟩ := h
      have hleaves : (payloadListToJson (conditions.map .condition)).filterMap
          (readChild fun _ => none) = conditions.map .condition := by
        apply filterMap_toJson
        intro leaf hleaf
        obtain ⟨c, -, rfl⟩ := List.mem_map.mp hleaf
        exact readChild_condition _ c
      show some (FilterTreePayloadNode.group
        (logicOf [("logic", .str (logicText logic)), ("conditions", .arr _)])
        ((payloadListToJson (conditions.map .condition)).filterMap (readChild fun _ => none))) = _
      rw [logicOf_group, hleaves]

theorem sent_isKept {logic : Logic} {nodes : List FilterTreePayloadNode}
    {payload : FilterTreePayloadGroup} (h : sent logic nodes = some payload) :
    payload.conditions ≠ [] ∧ ∀ node ∈ payload.conditions, IsKept node := by
  by_cases hempty : (nodes.filterMap FilterTreePayloadNode.pruned).isEmpty = true
  · simp only [sent, if_pos hempty] at h
    cases h
  · simp only [sent, if_neg hempty] at h
    cases h
    refine ⟨fun hnil => hempty (by simpa using hnil), ?_⟩
    intro kept hkept
    obtain ⟨node, -, hnode⟩ := List.mem_filterMap.mp hkept
    exact pruned_isKept hnode

theorem sent_of_isKept {logic : Logic} {nodes : List FilterTreePayloadNode} (hne : nodes ≠ [])
    (h : ∀ node ∈ nodes, IsKept node) :
    sent logic nodes = some { logic := logic, conditions := nodes } := by
  have hkept : nodes.filterMap FilterTreePayloadNode.pruned = nodes := by
    have hself : nodes.filterMap FilterTreePayloadNode.pruned = nodes.filterMap some := by
      apply List.filterMap_congr
      intro node hnode
      exact pruned_of_isKept (h node hnode)
    rw [hself, List.filterMap_some]
  simp only [sent, hkept]
  rw [if_neg fun hempty => hne (List.isEmpty_iff.mp hempty)]

def SortDirection.name : SortDirection → String
  | .asc => "ASC"
  | .desc => "DESC"

def SortCondition.toJson (sort : SortCondition) : Json :=
  .obj [("field", .str sort.field), ("direction", .str sort.direction.name)]

def presetContent (payload : Option FilterTreePayloadGroup) (sorts : List SortCondition) : Json :=
  .obj [("filterTree", (payload.map FilterTreePayloadGroup.toJson).getD .null),
    ("sorts", .arr (sorts.map SortCondition.toJson))]

theorem normalizeSorts_toJson (sorts : List SortCondition) :
    normalizeSorts (some (.arr (sorts.map SortCondition.toJson))) = sorts := by
  have hsort (sort : SortCondition) : normalizeSort sort.toJson = some sort := by
    obtain ⟨field, direction⟩ := sort
    cases direction <;> rfl
  show (sorts.map SortCondition.toJson).filterMap normalizeSort = sorts
  rw [List.filterMap_map]
  calc sorts.filterMap (normalizeSort ∘ SortCondition.toJson)
      = sorts.filterMap some := List.filterMap_congr fun sort _ => hsort sort
    _ = sorts := List.filterMap_some

theorem normalizePresetContent_saved (randomUUID : Nat → String) (root : FilterConditionGroup)
    (sorts : List SortCondition) :
    (normalizePresetContent randomUUID
      (some (presetContent (buildFilterTreePayload root) sorts))).Gives fun preset =>
        buildFilterTreePayload preset.1 = buildFilterTreePayload root ∧ preset.2 = sorts := by
  have hsorts := normalizeSorts_toJson sorts
  cases hpayload : buildFilterTreePayload root with
  | none => exact fun n => ⟨rfl, hsorts⟩
  | some payload =>
      rw [buildFilterTreePayload_eq_sent] at hpayload
      obtain ⟨hne, hkept⟩ := sent_isKept hpayload
      refine (toEditableGroup_gives randomUUID [("logic", .str (logicText payload.logic)),
        ("conditions", .arr (payloadListToJson payload.conditions))]).bind
        fun tree htree => Fresh.gives_pure ⟨?_, hsorts⟩
      have hread : readRoot [("logic", .str (logicText payload.logic)),
          ("conditions", .arr (payloadListToJson payload.conditions))] = payload.conditions :=
        filterMap_toJson fun node hnode => readChild_toJson (hkept node hnode)
      show buildFilterTreePayload tree = some payload
      rw [buildFilterTreePayload_eq_sent, htree.1, htree.2, logicOf_group, hread]
      exact sent_of_isKept hne hkept

/-! ## The rows that are kept -/

def joined : Logic → List Bool → Bool
  | .and, verdicts => verdicts.all fun verdict => verdict
  | .or, verdicts => verdicts.any fun verdict => verdict

mutual

/-- Whether a row is kept, given which conditions hold of it. -/
def FilterTreePayloadNode.keeps (holds : FilterTreePayloadCondition → Bool) :
    FilterTreePayloadNode → Bool
  | .condition c => holds c
  | .group logic nodes => joined logic (keepsList holds nodes)

def keepsList (holds : FilterTreePayloadCondition → Bool) :
    List FilterTreePayloadNode → List Bool
  | [] => []
  | node :: nodes => node.keeps holds :: keepsList holds nodes

end

/-- Without a payload every row is kept. -/
def payloadKeeps (holds : FilterTreePayloadCondition → Bool) :
    Option FilterTreePayloadGroup → Bool
  | none => true
  | some payload => joined payload.logic (keepsList holds payload.conditions)

def populatedConditions (items : List Json) : List FilterTreePayloadCondition :=
  (items.filterMap readCondition).filter FilterTreePayloadCondition.isPopulated

def filterLogicOf (content : List (String × Json)) : Logic :=
  if textField content "filterLogic" = some "OR" then .or else .and

/-- A group of an older preset, with how its conditions are joined. -/
def legacyPart (groupLogic : List (String × Json) → Logic) (raw : Json) :
    Option (Logic × List FilterTreePayloadCondition) :=
  match raw with
  | .obj record =>
      some (groupLogic record, populatedConditions (arrayField record "conditions"))
  | _ => none

def legacyParts (groupLogic : List (String × Json) → Logic) (content : List (String × Json)) :
    List (Logic × List FilterTreePayloadCondition) :=
  ((filterLogicOf content, populatedConditions (arrayField content "filters")) ::
    (arrayField content "filterGroups").filterMap (legacyPart groupLogic)).filter
      fun part => !part.2.isEmpty

/-- What an older preset means: a row is kept that its filters or one of its groups keep. -/
def legacyKeeps (groupLogic : List (String × Json) → Logic)
    (holds : FilterTreePayloadCondition → Bool) (content : List (String × Json)) : Bool :=
  (legacyParts groupLogic content).isEmpty ||
    (legacyParts groupLogic content).any fun part => joined part.1 (part.2.map holds)

theorem keepsList_eq_map (holds : FilterTreePayloadCondition → Bool)
    (nodes : List FilterTreePayloadNode) :
    keepsList holds nodes = nodes.map (FilterTreePayloadNode.keeps holds) := by
  induction nodes with
  | nil => rfl
  | cons node nodes ih => rw [keepsList, ih, List.map_cons]

/-- The group that a part of an older preset becomes. -/
def partNode (part : Logic × List FilterTreePayloadCondition) : FilterTreePayloadNode :=
  .group part.1 (part.2.map .condition)

theorem partNode_keeps (holds : FilterTreePayloadCondition → Bool)
    (part : Logic × List FilterTreePayloadCondition) :
    (partNode part).keeps holds = joined part.1 (part.2.map holds) := by
  rw [partNode, FilterTreePayloadNode.keeps, keepsList_eq_map, List.map_map]
  rfl

theorem filterMap_populated? (conditions : List FilterTreePayloadCondition) :
    (conditions.map FilterTreePayloadNode.condition).filterMap FilterTreePayloadNode.populated? =
      conditions.filter FilterTreePayloadCondition.isPopulated := by
  induction conditions with
  | nil => rfl
  | cons c conditions ih =>
      rw [List.map_cons, List.filterMap_cons, List.filter_cons, FilterTreePayloadNode.populated?,
        ih]
      by_cases hc : c.isPopulated = true
      · rw [if_pos hc, if_pos hc]
      · rw [if_neg hc, if_neg hc]

theorem pruned_partNode (logic : Logic) (conditions : List FilterTreePayloadCondition) :
    (partNode (logic, conditions)).pruned =
      let kept := conditions.filter FilterTreePayloadCondition.isPopulated
      if kept.isEmpty then none else some (partNode (logic, kept)) := by
  simp only [partNode, FilterTreePayloadNode.pruned, filterMap_populated?]

theorem filterMap_pruned_condition (conditions : List FilterTreePayloadCondition) :
    (conditions.map FilterTreePayloadNode.condition).filterMap FilterTreePayloadNode.pruned =
      (conditions.filter FilterTreePayloadCondition.isPopulated).map .condition := by
  induction conditions with
  | nil => rfl
  | cons c conditions ih =>
      rw [List.map_cons, List.filterMap_cons, List.filter_cons, FilterTreePayloadNode.pruned, ih]
      by_cases hc : c.isPopulated = true
      · rw [if_pos hc, if_pos hc, List.map_cons]
      · rw [if_neg hc, if_neg hc]

theorem payloadKeeps_sent (holds : FilterTreePayloadCondition → Bool) (logic : Logic)
    (nodes : List FilterTreePayloadNode) :
    payloadKeeps holds (sent logic nodes) =
      ((nodes.filterMap FilterTreePayloadNode.pruned).isEmpty ||
        joined logic ((nodes.filterMap FilterTreePayloadNode.pruned).map
          (FilterTreePayloadNode.keeps holds))) := by
  by_cases hempty : (nodes.filterMap FilterTreePayloadNode.pruned).isEmpty = true
  · have hsent : sent logic nodes = none := if_pos hempty
    rw [hsent, hempty, Bool.true_or, payloadKeeps]
  · simp only [sent, if_neg hempty, payloadKeeps, keepsList_eq_map]
    simp only [Bool.not_eq_true] at hempty
    rw [hempty, Bool.false_or]

/-! ## Older presets -/

/-- A group of an older preset, without an editing key. -/
def readLegacyGroup (raw : Json) : Option FilterTreePayloadNode :=
  match raw with
  | .obj record =>
      let conditions := (arrayField record "conditions").filterMap readCondition
      if conditions.isEmpty then none else some (partNode (.and, conditions))
  | _ => none

/-- The main filters of an older preset beside its groups. -/
def readLegacyMain (logic : Logic) (filters : List FilterTreePayloadCondition) :
    List FilterTreePayloadNode :=
  match logic with
  | .and => if filters.isEmpty then [] else [partNode (.and, filters)]
  | .or => filters.map fun filter => partNode (.and, [filter])

/-- The root of an older preset, without editing keys. -/
def readLegacy (content : List (String × Json)) : Logic × List FilterTreePayloadNode :=
  let filters := (arrayField content "filters").filterMap readCondition
  let groups := (arrayField content "filterGroups").filterMap readLegacyGroup
  if groups.isEmpty then (filterLogicOf content, filters.map .condition)
  else (.or, readLegacyMain (filterLogicOf content) filters ++ groups)

section Legacy

variable (randomUUID : Nat → String)

theorem toEditableConditions_gives (items : List Json) :
    (toEditableConditions randomUUID items).Gives fun conditions =>
      conditions.map toPayloadCondition = items.filterMap readCondition := by
  refine (Fresh.gives_mapM (v := Option.map toPayloadCondition) (g := readCondition)
    (toEditableCondition_gives randomUUID)).map fun conditions hconditions => ?_
  rw [map_filterMap_self, hconditions, filterMap_self_map]

theorem plain_conditions (conditions : List FilterCondition) :
    (conditions.map FilterNode.condition).map FilterNode.plain =
      (conditions.map toPayloadCondition).map .condition := by
  rw [List.map_map, List.map_map]
  rfl

theorem plain_group (id : String) (logic : Logic) (conditions : List FilterCondition) :
    (FilterNode.group id logic (conditions.map .condition)).plain =
      partNode (logic, conditions.map toPayloadCondition) := by
  rw [FilterNode.plain, plainList_eq_map, plain_conditions, partNode]

theorem toLegacyGroup_gives (raw : Json) :
    (toLegacyGroup randomUUID raw).Gives fun node =>
      node.map FilterNode.plain = readLegacyGroup raw := by
  cases raw with
  | obj record =>
      refine (toEditableConditions_gives randomUUID (arrayField record "conditions")).bind
        fun conditions hconditions => ?_
      simp only [readLegacyGroup, ← hconditions, List.isEmpty_map]
      split
      · exact fun _ => rfl
      · intro n
        show some (FilterNode.plain _) = some _
        rw [plain_group]
  | _ => exact fun _ => rfl

theorem legacyMain_gives (logic : Logic) (filters : List FilterCondition) :
    Fresh.Gives (match logic with
      | .and =>
          if filters.isEmpty then return []
          else do
            let id ← freshId randomUUID
            return [FilterNode.group id .and (filters.map .condition)]
      | .or => filters.mapM fun filter => do
          let id ← freshId randomUUID
          return FilterNode.group id .and [.condition filter])
      fun nodes => nodes.map FilterNode.plain =
        readLegacyMain logic (filters.map toPayloadCondition) := by
  cases logic with
  | and =>
      simp only [readLegacyMain, List.isEmpty_map]
      split
      · exact fun _ => rfl
      · intro n
        show [FilterNode.plain _] = [_]
        rw [plain_group]
  | or =>
      simp only [readLegacyMain, List.map_map]
      exact Fresh.gives_mapM fun filter _ => rfl

theorem legacyTree_gives (content : List (String × Json)) :
    (legacyTree randomUUID content).Gives fun tree =>
      (tree.logic, tree.children.map FilterNode.plain) = readLegacy content := by
  unfold legacyTree
  refine (toEditableConditions_gives randomUUID _).bind fun filters hfilters => ?_
  refine ((Fresh.gives_mapM (v := Option.map FilterNode.plain) (g := readLegacyGroup)
    (toLegacyGroup_gives randomUUID)).map (f := List.filterMap fun g => g)
    (R := fun groups => groups.map FilterNode.plain =
      (arrayField content "filterGroups").filterMap readLegacyGroup)
    fun groups hgroups => by rw [map_filterMap_self, hgroups, filterMap_self_map]).bind
    fun groups hgroups => ?_
  simp only [readLegacy, ← hfilters, ← hgroups, List.isEmpty_map]
  split
  · intro n
    show (_, (filters.map FilterNode.condition).map FilterNode.plain) = _
    rw [plain_conditions]
    rfl
  · refine (legacyMain_gives randomUUID (filterLogicOf content) filters).bind
      fun main hmain n => ?_
    show (Logic.or, (main ++ groups).map FilterNode.plain) = _
    rw [List.map_append, hmain]

end Legacy

theorem pruned_legacyGroups (items : List Json) :
    (items.filterMap readLegacyGroup).filterMap FilterTreePayloadNode.pruned =
      ((items.filterMap (legacyPart fun _ => .and)).filter fun part => !part.2.isEmpty).map
        partNode := by
  rw [List.filterMap_filterMap, List.filter_filterMap, List.map_filterMap]
  apply List.filterMap_congr
  intro raw _
  cases raw with
  | obj record =>
      simp only [readLegacyGroup, legacyPart, populatedConditions]
      generalize (arrayField record "conditions").filterMap readCondition = conditions
      cases conditions with
      | nil => rfl
      | cons c conditions =>
          simp only [List.isEmpty_cons, Bool.false_eq_true, if_false, Option.bind_some,
            pruned_partNode]
          cases (c :: conditions).filter FilterTreePayloadCondition.isPopulated <;> rfl
  | _ => rfl

/-- Beside the groups the main filters are sent if one has a value, and keep what they keep
together. -/
theorem pruned_legacyMain (holds : FilterTreePayloadCondition → Bool) (logic : Logic)
    (filters : List FilterTreePayloadCondition) :
    let kept := filters.filter FilterTreePayloadCondition.isPopulated
    let nodes := (readLegacyMain logic filters).filterMap FilterTreePayloadNode.pruned
    nodes.isEmpty = kept.isEmpty ∧
      nodes.any (FilterTreePayloadNode.keeps holds) =
        (!kept.isEmpty && joined logic (kept.map holds)) := by
  cases logic with
  | and =>
      cases filters with
      | nil => exact ⟨rfl, rfl⟩
      | cons c filters =>
          simp only [readLegacyMain, List.isEmpty_cons, Bool.false_eq_true, if_false,
            List.filterMap_cons, List.filterMap_nil, pruned_partNode]
          cases hkept : (c :: filters).filter FilterTreePayloadCondition.isPopulated with
          | nil => exact ⟨rfl, rfl⟩
          | cons k kept =>
              refine ⟨rfl, ?_⟩
              simp [partNode_keeps]
  | or =>
      have hnodes : (readLegacyMain .or filters).filterMap FilterTreePayloadNode.pruned =
          (filters.filter FilterTreePayloadCondition.isPopulated).map
            fun filter => partNode (.and, [filter]) := by
        simp only [readLegacyMain, List.filterMap_map]
        induction filters with
        | nil => rfl
        | cons c filters ih =>
            rw [List.filterMap_cons, List.filter_cons, ih, Function.comp_apply, pruned_partNode]
            by_cases hc : c.isPopulated = true
            · simp [hc]
            · simp [hc]
      refine ⟨by rw [hnodes, List.isEmpty_map], ?_⟩
      rw [hnodes, List.any_map]
      generalize filters.filter FilterTreePayloadCondition.isPopulated = kept
      cases kept with
      | nil => rfl
      | cons k kept => simp [joined, partNode_keeps, List.any_map, Function.comp_def]

theorem readLegacy_keeps (holds : FilterTreePayloadCondition → Bool)
    (content : List (String × Json)) :
    payloadKeeps holds (sent (readLegacy content).1 (readLegacy content).2) =
      legacyKeeps (fun _ => .and) holds content := by
  have hgroups := pruned_legacyGroups (arrayField content "filterGroups")
  simp only [readLegacy, legacyKeeps, legacyParts, List.filter_cons, populatedConditions]
  generalize (arrayField content "filters").filterMap readCondition = filters
  generalize (((arrayField content "filterGroups").filterMap
    (legacyPart fun _ => .and)).filter fun part => !part.2.isEmpty) = parts at hgroups ⊢
  generalize (arrayField content "filterGroups").filterMap readLegacyGroup = groups at hgroups ⊢
  by_cases hnone : groups.isEmpty = true
  · -- without groups the filters are the children of the root
    rw [if_pos hnone, payloadKeeps_sent, filterMap_pruned_condition]
    rw [List.isEmpty_iff.mp hnone] at hgroups
    have hparts : parts = [] := List.map_eq_nil_iff.mp hgroups.symm
    rw [hparts]
    cases filters.filter FilterTreePayloadCondition.isPopulated with
    | nil => rfl
    | cons k kept => simp [FilterTreePayloadNode.keeps, Function.comp_def]
  · obtain ⟨hempty, hany⟩ := pruned_legacyMain holds (filterLogicOf content) filters
    have happend (xs ys : List FilterTreePayloadNode) :
        (xs ++ ys).isEmpty = (xs.isEmpty && ys.isEmpty) := by
      cases xs <;> rfl
    rw [if_neg hnone, payloadKeeps_sent, List.filterMap_append, hgroups, happend, hempty,
      List.isEmpty_map]
    have hjoined (nodes : List FilterTreePayloadNode) :
        joined .or (nodes.map (FilterTreePayloadNode.keeps holds)) =
          nodes.any (FilterTreePayloadNode.keeps holds) := by
      simp [joined, List.any_map, Function.comp_def]
    rw [hjoined, List.any_append, hany, List.any_map]
    have hparts : (FilterTreePayloadNode.keeps holds ∘ partNode) =
        fun part => joined part.1 (part.2.map holds) := by
      funext part
      exact partNode_keeps holds part
    rw [hparts]
    cases filters.filter FilterTreePayloadCondition.isPopulated with
    | nil => simp
    | cons k kept => simp

theorem arrayField_of_not_isArray {record : List (String × Json)} {name : String}
    (h : isArray (Json.field? record name) = false) : arrayField record name = [] := by
  unfold arrayField
  split
  · rename_i items hitems
    rw [hitems] at h
    cases h
  · rfl

theorem legacyOrEmpty_gives (randomUUID : Nat → String)
    (holds : FilterTreePayloadCondition → Bool) {content : List (String × Json)}
    {sorts : List SortCondition}
    (h : (legacyTree randomUUID content).Gives fun tree =>
      payloadKeeps holds (buildFilterTreePayload tree) =
        legacyKeeps (fun _ => .and) holds content) :
    Fresh.Gives (do
      if isArray (Json.field? content "filters") || isArray (Json.field? content "filterGroups")
      then return (← legacyTree randomUUID content, sorts)
      else return (← createEmptyRootGroup randomUUID, sorts))
      fun preset => payloadKeeps holds (buildFilterTreePayload preset.1) =
        legacyKeeps (fun _ => .and) holds content := by
  split
  · exact h.bind fun tree htree => Fresh.gives_pure htree
  · rename_i hneither
    rw [Bool.not_eq_true, Bool.or_eq_false_iff] at hneither
    intro n
    have hfilters := arrayField_of_not_isArray hneither.1
    have hgroups := arrayField_of_not_isArray hneither.2
    simp only [legacyKeeps, legacyParts, populatedConditions, hfilters, hgroups]
    rfl

theorem normalizePresetContent_legacy (randomUUID : Nat → String)
    (holds : FilterTreePayloadCondition → Bool) {content : List (String × Json)}
    (h : ∀ tree, Json.field? content "filterTree" ≠ some (.obj tree)) :
    (normalizePresetContent randomUUID (some (.obj content))).Gives fun preset =>
      payloadKeeps holds (buildFilterTreePayload preset.1) =
        legacyKeeps (fun _ => .and) holds content := by
  have hlegacy : (legacyTree randomUUID content).Gives fun tree =>
      payloadKeeps holds (buildFilterTreePayload tree) =
        legacyKeeps (fun _ => .and) holds content := by
    intro n
    have hgives := legacyTree_gives randomUUID content n
    rw [buildFilterTreePayload_eq_sent, ← readLegacy_keeps, ← hgives]
  have hother := @legacyOrEmpty_gives randomUUID holds content
    (normalizeSorts (Json.field? content "sorts")) hlegacy
  cases hfield : Json.field? content "filterTree" with
  | none =>
      simp only [normalizePresetContent, hfield]
      exact hother
  | some value =>
      cases value with
      | obj tree => exact absurd hfield (h tree)
      | _ =>
          simp only [normalizePresetContent, hfield]
          exact hother

/-! ## Applying a preset -/

/-- A saved tree is applied as a tree with the same payload. Any other preset, an older one
with filters, groups and a filter logic among them, is applied as a tree that keeps the same
rows: those that the filters, joined by the filter logic, keep or that one of the groups
keeps, joined by "and". Conditions without a value count for nothing, and neither do filters
and groups that have no others; if nothing is left, every row is kept. -/
theorem normalizePresetContent_undoes (randomUUID : Nat → String) (drawn : Nat) :
    (∀ root sorts payload, buildFilterTreePayload root = some payload →
      buildFilterTreePayload (normalizePresetContent randomUUID
        (some (presetContent (some payload) sorts)) drawn).1.1 = some payload) ∧
      ∀ (holds : FilterTreePayloadCondition → Bool) content,
        (∀ tree, Json.field? content "filterTree" ≠ some (.obj tree)) →
          payloadKeeps holds (buildFilterTreePayload (normalizePresetContent randomUUID
            (some (.obj content)) drawn).1.1) = legacyKeeps (fun _ => .and) holds content := by
  constructor
  · intro root sorts payload hpayload
    have hsaved := (normalizePresetContent_saved randomUUID root sorts drawn).1
    rwa [hpayload] at hsaved
  · intro holds content h
    exact normalizePresetContent_legacy randomUUID holds h drawn

def presetCondition (field : String) : Json :=
  .obj [("field", .str field), ("operator", .str "EQUALS"), ("value", .str "1")]

/-- A preset with one filter and one group of two conditions that names its own logic. -/
def groupedPreset : List (String × Json) :=
  [("filters", .arr [presetCondition "a"]), ("filterLogic", .str "AND"),
    ("filterGroups", .arr [.obj [("logic", .str "OR"),
      ("conditions", .arr [presetCondition "b", presetCondition "c"])]])]

theorem normalizePresetContent_undoes_grouped :
    payloadKeeps (fun c => c.field == "a") (buildFilterTreePayload
      (normalizePresetContent (fun n => toString n) (some (.obj groupedPreset)) 0).1.1) =
      legacyKeeps (fun _ => .and) (fun c => c.field == "a") groupedPreset :=
  (normalizePresetContent_undoes (fun n => toString n) 0).2 _ groupedPreset (by
    intro tree h
    cases h)

/-- The logic that a group names is not read: joined by it, the group keeps a row that the
tree does not keep. -/
theorem groupedPreset_logic :
    ¬ ∀ holds : FilterTreePayloadCondition → Bool,
      payloadKeeps holds (buildFilterTreePayload
        (normalizePresetContent (fun n => toString n) (some (.obj groupedPreset)) 0).1.1) =
        legacyKeeps logicOf holds groupedPreset := by
  intro h
  have hb := h fun c => c.field == "b"
  revert hb
  decide +kernel

end Wbme.Web

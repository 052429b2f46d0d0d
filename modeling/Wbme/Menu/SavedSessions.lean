import Mathlib.Data.List.DropRight
import Wbme.Menu.Validation

/-! # What an editing session saves

A state of the editor is reached from a stored configuration by the operations of the page.
Its tree has distinct keys, and its names come from the store or were trimmed by a rename;
so the service accepts the rows of the tree and stores them as they are.
-/

namespace Wbme.Menu

open Lib.Forest

/-! ## Stored names -/

def StoredName (name : Option String) : Prop := normalizeNameOverride name = name

theorem dropWhile_rdropWhile {α : Type} (cut : α → Bool) (l : List α) :
    ((l.dropWhile cut).rdropWhile cut).dropWhile cut = (l.dropWhile cut).rdropWhile cut := by
  have hfront := List.dropWhile_idempotent cut l
  generalize l.dropWhile cut = front at hfront ⊢
  rw [List.dropWhile_eq_self_iff]
  intro hlength hcut
  have hfirst := List.rdropWhile_prefix cut (l := front)
  have hfront' := List.dropWhile_eq_self_iff.mp hfront (hlength.trans_le hfirst.length_le)
  apply hfront'
  rwa [← hfirst.getElem hlength]

theorem trim_trim (name : String) : trim (trim name) = trim name := by
  have htrim : ∀ name, trim name =
      String.ofList ((name.toList.dropWhile isTrimmed).rdropWhile isTrimmed) := fun _ => rfl
  rw [htrim (trim name), htrim name, String.toList_ofList, dropWhile_rdropWhile,
    List.rdropWhile_idempotent]

theorem storedName_normalize (value : Option String) :
    StoredName (normalizeNameOverride value) := by
  unfold StoredName
  cases value with
  | none => rfl
  | some name =>
      by_cases hblank : trim name = ""
      · simp [normalizeNameOverride, hblank]
      · simp [normalizeNameOverride, hblank, trim_trim]

/-! ## The names of a tree -/

variable {k : String}

section Names

variable {P : Option String → Prop}

/-- Every node of the trees has a name with the property. -/
def AllNamed (P : Option String → Prop) (nodes : List EditorNode) : Prop :=
  ∀ node ∈ allNodes nodes, P node.nameOverride

theorem allNamed_nil : AllNamed P [] := by
  intro node hnode
  cases hnode

variable {name : Option String}

@[simp] theorem allNamed_item {rest : List EditorNode} :
    AllNamed P (.item k name :: rest) ↔ P name ∧ AllNamed P rest := by
  simp [AllNamed, allNodes, EditorNode.allNodes, EditorNode.nameOverride]

@[simp] theorem allNamed_group {children rest : List EditorNode} :
    AllNamed P (.group k name children :: rest) ↔
      P name ∧ AllNamed P children ∧ AllNamed P rest := by
  simp only [AllNamed, allNodes, EditorNode.allNodes, List.cons_append, List.forall_mem_cons,
    List.forall_mem_append]
  rfl

variable {nodes : List EditorNode}

theorem allNamed_iff : AllNamed P nodes ↔ ∀ node ∈ nodes, AllNamed P [node] := by
  unfold AllNamed
  simp only [allNodes_eq_flatMap, List.flatMap_singleton, List.mem_flatMap]
  constructor
  · intro h node hnode below hbelow
    exact h below ⟨node, hnode, hbelow⟩
  · rintro h below ⟨node, hnode, hbelow⟩
    exact h node hnode below hbelow

theorem AllNamed.of_subset {nodes nodes' : List EditorNode} (h : AllNamed P nodes)
    (hsub : ∀ node ∈ nodes', node ∈ nodes) : AllNamed P nodes' :=
  allNamed_iff.mpr fun node hnode => allNamed_iff.mp h node (hsub node hnode)

theorem AllNamed.append {nodes more : List EditorNode} (h : AllNamed P nodes)
    (hmore : AllNamed P more) : AllNamed P (nodes ++ more) := by
  intro node hnode
  rw [allNodes_append] at hnode
  rcases List.mem_append.mp hnode with hnode | hnode
  · exact h node hnode
  · exact hmore node hnode

theorem AllNamed.insertAt {node : EditorNode} (h : AllNamed P nodes) (hnode : AllNamed P [node])
    (index : Int) : AllNamed P (insertAt nodes index node) := by
  apply (hnode.append h).of_subset
  intro other hother
  have hperm : (Wbme.Menu.insertAt nodes index node).Perm (node :: nodes) := by
    apply List.perm_insertIdx
    split <;> omega
  simpa using hperm.mem_iff.mp hother

theorem AllNamed.updateGroup {nodes : List EditorNode} (h : AllNamed P nodes) (k : String)
    {change : List EditorNode → List EditorNode}
    (hchange : ∀ children, AllNamed P children → AllNamed P (change children)) :
    AllNamed P (updateGroup k change nodes) := by
  induction nodes using forest_induction with
  | nil => exact allNamed_nil
  | item j name rest ih =>
      rw [allNamed_item] at h
      rw [updateGroup_cons_item, allNamed_item]
      exact ⟨h.1, ih h.2⟩
  | group j name children rest ihChildren ihRest =>
      rw [allNamed_group] at h
      rw [updateGroup_cons_group]
      by_cases hj : j = k
      · rw [if_pos hj, allNamed_group]
        exact ⟨h.1, hchange children h.2.1, ihRest h.2.2⟩
      · rw [if_neg hj, allNamed_group]
        exact ⟨h.1, ihChildren h.2.1, ihRest h.2.2⟩

theorem AllNamed.eraseIdx (h : AllNamed P nodes) {i : Nat} {removed : EditorNode}
    (hremoved : nodes[i]? = some removed) : AllNamed P (nodes.eraseIdx i) ∧ AllNamed P [removed] :=
  ⟨h.of_subset fun _ hnode => List.mem_of_mem_eraseIdx hnode,
    allNamed_iff.mp h removed (List.mem_of_getElem? hremoved)⟩

theorem AllNamed.removeBelow {nodes nodes' : List EditorNode} (h : AllNamed P nodes)
    {ref : EditorDragRef} {removal : Removal}
    (hremove : removeBelow ref nodes = some (nodes', removal)) :
    AllNamed P nodes' ∧ AllNamed P [removal.removed] := by
  induction nodes using forest_induction generalizing nodes' removal with
  | nil => simp [Wbme.Menu.removeBelow] at hremove
  | item k name rest ih =>
      rw [allNamed_item] at h
      rw [removeBelow_cons_item] at hremove
      rcases Option.map_eq_some_iff.mp hremove with ⟨⟨later, found⟩, hfound, heq⟩
      simp only [Prod.mk.injEq] at heq
      rw [← heq.1, ← heq.2, allNamed_item]
      exact ⟨⟨h.1, (ih h.2 hfound).1⟩, (ih h.2 hfound).2⟩
  | group k name children rest ihChildren ihRest =>
      rw [allNamed_group] at h
      unfold Wbme.Menu.removeBelow at hremove
      cases hnode : (EditorNode.group k name children).removeBelow ref with
      | none =>
          simp only [hnode] at hremove
          rcases Option.map_eq_some_iff.mp hremove with ⟨⟨later, found⟩, hfound, heq⟩
          simp only [Prod.mk.injEq] at heq
          rw [← heq.1, ← heq.2, allNamed_group]
          have hrest := ihRest h.2.2 hfound
          exact ⟨⟨h.1, h.2.1, hrest.1⟩, hrest.2⟩
      | some pair =>
          rcases pair with ⟨changed, found⟩
          simp only [hnode, Option.some.injEq, Prod.mk.injEq] at hremove
          rw [← hremove.1, ← hremove.2]
          unfold EditorNode.removeBelow at hnode
          cases hidx : children.findIdx? (fun node => node.ref = ref) with
          | some i =>
              simp only [hidx] at hnode
              rcases Option.map_eq_some_iff.mp hnode with ⟨removed, hremoved, heq⟩
              simp only [Prod.mk.injEq] at heq
              rw [← heq.1, ← heq.2, allNamed_group]
              have hinner := h.2.1.eraseIdx hremoved
              exact ⟨⟨h.1, hinner.1, h.2.2⟩, hinner.2⟩
          | none =>
              simp only [hidx] at hnode
              rcases Option.map_eq_some_iff.mp hnode with ⟨⟨inner, removed⟩, hinner, heq⟩
              simp only [Prod.mk.injEq] at heq
              rw [← heq.1, ← heq.2, allNamed_group]
              have hbelow := ihChildren h.2.1 hinner
              exact ⟨⟨h.1, hbelow.1, h.2.2⟩, hbelow.2⟩

theorem AllNamed.removeNode {nodes nodes' : List EditorNode} (h : AllNamed P nodes)
    {ref : EditorDragRef} {removal : Removal}
    (hremove : removeNode nodes ref = some (nodes', removal)) :
    AllNamed P nodes' ∧ AllNamed P [removal.removed] := by
  unfold Wbme.Menu.removeNode at hremove
  cases hidx : nodes.findIdx? (fun node => node.ref = ref) with
  | some i =>
      simp only [hidx] at hremove
      rcases Option.map_eq_some_iff.mp hremove with ⟨removed, hremoved, heq⟩
      simp only [Prod.mk.injEq] at heq
      rw [← heq.1, ← heq.2]
      exact h.eraseIdx hremoved
  | none =>
      simp only [hidx] at hremove
      exact h.removeBelow hremove

theorem AllNamed.renameNodes {nodes : List EditorNode} (h : AllNamed P nodes) {name : Option String}
    (hname : P name) (target : EditorDragRef) : AllNamed P (renameNodes target name nodes).1 := by
  induction nodes using forest_induction with
  | nil => exact allNamed_nil
  | item k old rest ih =>
      rw [allNamed_item] at h
      by_cases htarget : target = .item k
      · simp [Wbme.Menu.renameNodes, EditorNode.rename, htarget, hname, htarget ▸ ih h.2]
      · simp [Wbme.Menu.renameNodes, EditorNode.rename, htarget, h.1, ih h.2]
  | group k old children rest ihChildren ihRest =>
      rw [allNamed_group] at h
      by_cases htarget : target = .group k
      · simp [Wbme.Menu.renameNodes, EditorNode.rename, htarget, hname, h.2.1,
          htarget ▸ ihRest h.2.2]
      · simp [Wbme.Menu.renameNodes, EditorNode.rename, htarget, h.1, ihChildren h.2.1,
          ihRest h.2.2]

end Names

/-! ## The operations of the page -/

/-- The page creates groups without a name; a name that is stored as it is would do as well. -/
def EditorOp.StoresNames : EditorOp → Prop
  | .create _ _ nameOverride => StoredName nameOverride
  | _ => True

section Operations

variable {state next : MenuEditorState}

theorem moveEditorNode_named {P : Option String → Prop} {drag : EditorDragRef}
    {target : EditorDropTarget} (h : AllNamed P state.top)
    (hmove : moveEditorNode state drag target = some next) : AllNamed P next.top := by
  unfold moveEditorNode at hmove
  by_cases hguard : targetGuardFails state drag target
  · simp [hguard] at hmove
  · simp only [hguard, Bool.false_eq_true, if_false] at hmove
    cases hremove : removeNode state.top drag with
    | none => simp [hremove] at hmove
    | some pair =>
        rcases pair with ⟨nodes, removal⟩
        have hnamed := h.removeNode hremove
        simp only [hremove] at hmove
        cases target with
        | top index =>
            simp only [Option.some.injEq] at hmove
            rw [← hmove]
            exact hnamed.1.insertAt hnamed.2 _
        | children groupKey index =>
            simp only [Option.some.injEq] at hmove
            rw [← hmove]
            exact hnamed.1.updateGroup groupKey fun _ hchildren => hchildren.insertAt hnamed.2 _

theorem applyOp_named {op : EditorOp} (h : AllNamed StoredName state.top) (hop : op.StoresNames)
    (happly : applyOp state op = some next) : AllNamed StoredName next.top := by
  cases op with
  | create random parentKey name =>
      have hname : AllNamed StoredName [.group (customGroupPrefix ++ random) name []] :=
        allNamed_group.mpr ⟨hop, allNamed_nil, allNamed_nil⟩
      simp only [applyOp, createGroupNode] at happly
      cases parentKey with
      | none =>
          simp only [Option.some.injEq] at happly
          rw [← happly]
          exact h.append hname
      | some parent =>
          by_cases hparent : (findGroupNode parent state.top).isNone
          · simp [hparent] at happly
          · simp only [hparent, Bool.false_eq_true, if_false, Option.some.injEq] at happly
            rw [← happly]
            exact h.updateGroup parent fun _ hchildren => hchildren.append hname
  | delete k =>
      simp only [applyOp, deleteGroupNode] at happly
      cases hfind : findGroupNode k state.top with
      | none => simp [hfind] at happly
      | some pair =>
          rcases pair with ⟨name, children⟩
          by_cases hempty : children = []
          · simp only [hfind, hempty, ne_eq, not_true_eq_false, if_false] at happly
            rcases Option.map_eq_some_iff.mp happly with ⟨⟨nodes, removal⟩, hremoved, heq⟩
            rw [← heq]
            exact (h.removeNode hremoved).1
          · simp [hfind, hempty] at happly
  | move drag target => exact moveEditorNode_named h happly
  | moveByOffset drag direction =>
      simp only [applyOp, moveEditorNodeByOffset] at happly
      cases hlocate : locateNode state.top drag with
      | none => simp [hlocate] at happly
      | some located =>
          simp only [hlocate] at happly
          cases direction <;> simp only at happly <;> split at happly
          · cases happly
          · exact moveEditorNode_named h happly
          · cases happly
          · exact moveEditorNode_named h happly
  | rename target rawName =>
      simp only [applyOp, renameEditorNode] at happly
      have hname : StoredName (if trim rawName = "" then none else some (trim rawName)) :=
        storedName_normalize (some rawName)
      generalize (if trim rawName = "" then none else some (trim rawName)) = name
        at happly hname
      by_cases hfound : (renameNodes target name state.top).2
      · simp only [hfound, if_true, Option.some.injEq] at happly
        rw [← happly]
        exact h.renameNodes hname target
      · simp [hfound] at happly

theorem editorStep_named {op : EditorOp} (h : AllNamed StoredName state.top)
    (hop : op.StoresNames) : AllNamed StoredName (editorStep state op).top := by
  unfold editorStep
  cases happly : applyOp state op with
  | none => exact h
  | some next => exact applyOp_named h hop happly

end Operations

/-! ## Loading -/

/-- What the store holds: nothing after a reset, else what a save has stored. -/
inductive StoredConfig : SystemMenuConfig → Prop where
  | reset : StoredConfig emptyMenuConfig
  | saved {fuel : Nat} {dto config : SystemMenuConfig}
      (h : normalizeAndValidateMenuConfig fuel dto = some (.ok config)) : StoredConfig config

/-- Every row has a stored name. -/
def SystemMenuConfig.AllStored (config : SystemMenuConfig) : Prop :=
  (∀ row ∈ config.groups, StoredName row.nameOverride) ∧
    ∀ row ∈ config.items, StoredName row.nameOverride

theorem allStored_normalized (dto : SystemMenuConfig) : dto.normalized.AllStored := by
  constructor
  · intro row hrow
    rcases List.mem_map.mp hrow with ⟨source, -, heq⟩
    rw [← heq]
    exact storedName_normalize _
  · intro row hrow
    rcases List.mem_map.mp hrow with ⟨source, -, heq⟩
    rw [← heq]
    exact storedName_normalize _

theorem eq_normalized_of_ok {fuel : Nat} {dto config : SystemMenuConfig}
    (h : normalizeAndValidateMenuConfig fuel dto = some (.ok config)) :
    config = dto.normalized := by
  unfold normalizeAndValidateMenuConfig at h
  generalize dto.normalized = rows at h ⊢
  dsimp only at h
  cases hgroups : repeatedKey [] (rows.groups.map (·.nodeKey)) with
  | some key => simp [hgroups] at h
  | none =>
  cases hitems : repeatedKey [] (rows.items.map (·.itemKey)) with
  | some key => simp [hgroups, hitems] at h
  | none =>
  cases hparents : rows.groups.findSome? (groupParentFault rows.groups) with
  | some reason => simp [hgroups, hitems, hparents] at h
  | none =>
  cases hcycle : cycleFault fuel rows.groups rows.groups with
  | none => simp [hgroups, hitems, hparents, hcycle] at h
  | some fault =>
  cases fault with
  | some reason => simp [hgroups, hitems, hparents, hcycle] at h
  | none =>
  cases hhomes : rows.items.findSome? (itemParentFault (rows.groups.map (·.nodeKey))) with
  | some reason => simp [hgroups, hitems, hparents, hcycle, hhomes] at h
  | none =>
      simp only [hgroups, hitems, hparents, hcycle, hhomes, Option.some.injEq,
        Except.ok.injEq] at h
      exact h.symm

variable {config : SystemMenuConfig}

theorem StoredConfig.allStored (h : StoredConfig config) : config.listed.AllStored := by
  have hstored : config.AllStored := by
    cases h with
    | reset => exact ⟨by simp [emptyMenuConfig], by simp [emptyMenuConfig]⟩
    | saved h =>
        rw [eq_normalized_of_ok h]
        exact allStored_normalized _
  constructor
  · intro row hrow
    exact hstored.1 row ((List.perm_insertionSort _ _).mem_iff.mp hrow)
  · intro row hrow
    exact hstored.2 row ((List.perm_insertionSort _ _).mem_iff.mp hrow)

theorem lastRow_mem {α : Type} {keyOf : α → String} {rows : List α} {row : α}
    (h : lastRow keyOf rows k = some row) : row ∈ rows :=
  List.mem_reverse.mp (List.mem_of_find?_eq_some h)

theorem buildChildren_named {P : Option String → Prop} {menu : ResolvedMenu}
    (hitems : ∀ row ∈ menu.items, P row.nameOverride)
    (hgroups : ∀ row ∈ menu.groups, P row.nameOverride) (fuel : Nat) (p : Option String) :
    AllNamed P (buildChildren menu fuel p) := by
  induction fuel generalizing p with
  | zero => exact allNamed_nil
  | succ fuel ih =>
      rw [allNamed_iff]
      intro node hnode
      unfold buildChildren at hnode
      rcases List.mem_map.mp hnode with ⟨row, hrow, heq⟩
      have hplaced := (sortPlaced_perm _ _).mem_iff.mp hrow
      rcases List.mem_append.mp hplaced with hrow | hrow
      · rcases List.mem_map.mp hrow with ⟨source, hsource, hnode⟩
        subst hnode
        rw [← heq, allNamed_item]
        exact ⟨hitems source (List.mem_filter.mp hsource).1, allNamed_nil⟩
      · rcases List.mem_map.mp hrow with ⟨source, hsource, hnode⟩
        subst hnode
        rw [← heq, allNamed_group]
        exact ⟨hgroups source (List.mem_filter.mp hsource).1, ih _, allNamed_nil⟩

theorem buildEditorState_named {defaults : List NavigationItem} (h : config.AllStored) :
    AllNamed StoredName (buildEditorState defaults config).top := by
  unfold buildEditorState
  apply buildChildren_named
  · intro row hrow
    rcases List.mem_map.mp hrow with ⟨⟨item, index⟩, -, heq⟩
    subst heq
    have hname : (resolveItem (configFromDefaults defaults) config item index).nameOverride =
        (lastRow (·.itemKey) config.items item.key).bind (·.nameOverride) := by
      unfold resolveItem
      cases hrow : lastRow (·.itemKey) config.items item.key with
      | none => rfl
      | some row =>
          dsimp only
          split <;> rfl
    rw [hname]
    cases hrow : lastRow (·.itemKey) config.items item.key with
    | none => rfl
    | some row => exact h.2 row (lastRow_mem hrow)
  · intro row hrow
    rcases List.mem_map.mp hrow with ⟨nodeKey, -, heq⟩
    subst heq
    show StoredName ((lastRow (·.nodeKey) config.groups nodeKey).bind (·.nameOverride))
    cases hrow : lastRow (·.nodeKey) config.groups nodeKey with
    | none => rfl
    | some row => exact h.1 row (lastRow_mem hrow)

section Rows

theorem serializeNodes_founded (p : Option String) (i : Nat) (nodes : List EditorNode)
    (hnodup : (refs nodes).Nodup) {before : List (String × Option String)}
    (hbefore : Founded before) (hp : ∀ q, p = some q → q ∈ before.map (·.1))
    (hnew : ∀ k, .group k ∈ refs nodes → k ∉ before.map (·.1)) :
    Founded (groupPairs (serializeNodes p i nodes).groups.reverse ++ before) := by
  induction nodes using forest_induction generalizing p i before with
  | nil => exact hbefore
  | item k name rest ih =>
      simp only [refs_item, List.nodup_cons] at hnodup
      exact ih p (i + 1) hnodup.2 hbefore hp fun j hj => hnew j (by simp [hj])
  | group k name children rest ihChildren ihRest =>
      simp only [refs_group, List.nodup_cons, List.mem_append, not_or,
        List.nodup_append] at hnodup
      have hself : Founded ((k, p) :: before) := ⟨hnew k (by simp), hp, hbefore⟩
      have hchildren := ihChildren (some k) 0 hnodup.2.1 hself
        (by
          intro q hq
          simp [Option.some.inj hq])
        (by
          intro j hj hmem
          rcases List.mem_cons.mp hmem with heq | hmem
          · have hjk : j = k := heq
            exact hnodup.1.1 (hjk ▸ hj)
          · exact hnew j (by simp [hj]) hmem)
      have hkeys : ∀ j, j ∈ (serializeNodes (some k) 0 children).groups.map (·.nodeKey) →
          .group j ∈ refs children := by
        intro j hj
        rcases List.mem_map.mp hj with ⟨row, hrow, heq⟩
        rw [← (serializeNodes_refs (some k) 0 children).mem_iff]
        simp only [configEntries, List.map_append, List.map_map, List.mem_append, List.mem_map]
        exact Or.inr ⟨row, hrow, by simp [heq]⟩
      have hrest := ihRest p (i + 1) hnodup.2.2.1 hchildren
        (by
          intro q hq
          simp [hp q hq])
        (by
          intro j hj hmem
          simp only [List.map_append, groupPairs_keys, List.map_reverse, List.mem_append,
            List.mem_reverse, List.map_cons, List.mem_cons] at hmem
          rcases hmem with hmem | heq | hmem
          · exact hnodup.2.2.2 _ (hkeys j hmem) _ hj rfl
          · exact hnodup.1.2 (heq ▸ hj)
          · exact hnew j (by simp [hj]) hmem)
      simpa [serializeNodes, serializeNode, SystemMenuConfig.append, groupPairs,
        List.append_assoc] using hrest

theorem parentOfRows_eq_parentIn (groups : List MenuGroupConfigRow) (k : String) :
    parentOfRows groups k = parentIn (groupPairs groups.reverse) k := by
  simp only [parentOfRows, lastRow, parentIn, groupPairs, List.find?_map, Option.bind_map]
  rfl

variable {defaults : List NavigationItem} {state : MenuEditorState}

theorem serialize_wellFormed (h : state.Sound defaults) :
    (serializeEditorState state).WellFormed := by
  have hnodup := h.saved_nodup
  have hparent : ∀ entry ∈ configEntries (serializeEditorState state), ∀ parentKey,
      entry.1 = some parentKey →
        parentKey ∈ (serializeEditorState state).groups.map (·.nodeKey) := by
    intro entry hentry parentKey hparent
    rw [serialize_groupKeys]
    rcases serializeNodes_parent hentry with htop | ⟨k, hk, hmem⟩
    · rw [htop] at hparent
      cases hparent
    · rw [hk, Option.some.injEq] at hparent
      exact hparent ▸ hmem
  refine ⟨hnodup.2, hnodup.1, ?_, ?_, ?_⟩
  · intro row hrow parentKey hrowParent
    exact hparent _ (List.mem_append_right _ (List.mem_map_of_mem hrow)) parentKey hrowParent
  · intro row hrow parentKey hrowParent
    exact hparent _ (List.mem_append_left _ (List.mem_map_of_mem hrow)) parentKey hrowParent
  · rw [acyclic_iff hnodup.2]
    apply acyclic_of_rooted
    intro k
    have hfounded : Founded (groupPairs (serializeEditorState state).groups.reverse ++ []) :=
      serializeNodes_founded none 0 state.top h.nodup trivial (by simp) (by simp)
    rw [List.append_nil] at hfounded
    by_cases hk : k ∈ (serializeEditorState state).groups.map (·.nodeKey)
    · have hsame : parentOfRows (serializeEditorState state).groups =
          parentIn (groupPairs (serializeEditorState state).groups.reverse) :=
        funext fun j => parentOfRows_eq_parentIn _ j
      rw [hsame]
      apply hfounded.rooted
      simpa using hk
    · exact Rooted.top (parentOfRows_of_not_mem hk)

theorem serializeNodes_names {P : Option String → Prop} {nodes : List EditorNode}
    (h : AllNamed P nodes) (p : Option String) (i : Nat) :
    ∀ entry ∈ configEntries (serializeNodes p i nodes), P entry.2.nameOverride := by
  induction nodes using forest_induction generalizing p i with
  | nil => simp [serializeNodes, configEntries, emptyMenuConfig]
  | item k name rest ih =>
      rw [allNamed_item] at h
      intro entry hentry
      rw [(serializeNodes_item p i k name rest).mem_iff, List.mem_cons] at hentry
      rcases hentry with heq | hentry
      · rw [heq]
        exact h.1
      · exact ih h.2 p (i + 1) entry hentry
  | group k name children rest ihChildren ihRest =>
      rw [allNamed_group] at h
      intro entry hentry
      rw [(serializeNodes_group p i k name children rest).mem_iff, List.mem_cons,
        List.mem_append] at hentry
      rcases hentry with heq | hentry | hentry
      · rw [heq]
        exact h.1
      · exact ihChildren h.2.1 (some k) 0 entry hentry
      · exact ihRest h.2.2 p (i + 1) entry hentry

theorem normalized_eq_self (h : config.AllStored) : config.normalized = config := by
  have hgroups : config.groups.map (fun row =>
      { row with nameOverride := normalizeNameOverride row.nameOverride }) = config.groups := by
    conv_rhs => rw [← List.map_id config.groups]
    apply List.map_congr_left
    intro row hrow
    rw [h.1 row hrow, id]
  have hitems : config.items.map (fun row =>
      { row with nameOverride := normalizeNameOverride row.nameOverride }) = config.items := by
    conv_rhs => rw [← List.map_id config.items]
    apply List.map_congr_left
    intro row hrow
    rw [h.2 row hrow, id]
  unfold SystemMenuConfig.normalized
  rw [hgroups, hitems]

theorem serialize_allStored (h : AllNamed StoredName state.top) :
    (serializeEditorState state).AllStored := by
  have hnames := serializeNodes_names h none 0
  constructor
  · intro row hrow
    exact hnames _ (List.mem_append_right _ (List.mem_map_of_mem hrow))
  · intro row hrow
    exact hnames _ (List.mem_append_left _ (List.mem_map_of_mem hrow))

end Rows

/-! ## Sessions on stored configurations -/

/-- The states the page can be in: loaded from the store, then changed step by step. -/
inductive PageState (menu : DefaultMenu) : MenuEditorState → Prop where
  | load {config : SystemMenuConfig} (h : StoredConfig config) :
      PageState menu (buildEditorState menu.items config.listed)
  | step {state : MenuEditorState} {op : EditorOp} (h : PageState menu state)
      (hfresh : op.Fresh menu.items state) (hnames : op.StoresNames) :
      PageState menu (editorStep state op)

theorem PageState.sound {menu : DefaultMenu} {state : MenuEditorState} (h : PageState menu state) :
    state.Sound menu.items ∧ AllNamed StoredName state.top := by
  induction h with
  | load h => exact ⟨build_sound menu.nodup _, buildEditorState_named h.allStored⟩
  | step _ hfresh hnames ih =>
      exact ⟨(editorStep_sound ih.1 hfresh).1, editorStep_named ih.2 hnames⟩

/-- Whatever the page does, a save names every item of the code once, and nothing else. -/
theorem saved_items (menu : DefaultMenu) (state : {s : MenuEditorState // PageState menu s}) :
    ((serializeEditorState state.1).items.map (·.itemKey)).Perm (menu.items.map (·.key)) := by
  have hsound := state.2.sound.1
  rw [List.perm_ext_iff_of_nodup hsound.saved_nodup.1 menu.nodup]
  intro k
  rw [serialize_itemKeys, hsound.items]

/-- Every check ends, with fuel for one walk over all groups; it accepts exactly the well
formed configurations, and the rows of every page state, which it stores unchanged. -/
theorem save_check (menu : DefaultMenu) :
    (∀ dto : SystemMenuConfig, ∃ outcome : Except String SystemMenuConfig,
      (∀ fuel, dto.groups.length + 1 ≤ fuel →
        normalizeAndValidateMenuConfig fuel dto = some outcome) ∧
      ((∃ config, outcome = .ok config) ↔ dto.WellFormed)) ∧
    ∀ state, PageState menu state →
      ∀ fuel, (serializeEditorState state).groups.length + 1 ≤ fuel →
        normalizeAndValidateMenuConfig fuel (serializeEditorState state) =
          some (.ok (serializeEditorState state)) := by
  constructor
  · intro dto
    rcases normalizeAndValidateMenuConfig_spec dto (Nat.le_refl _) with
      ⟨outcome, hends, haccepted, hrefused⟩
    refine ⟨outcome, fun fuel hfuel => normalizeAndValidateMenuConfig_mono hends hfuel, ?_⟩
    by_cases hwell : dto.WellFormed
    · exact iff_of_true ⟨_, haccepted hwell⟩ hwell
    · rcases hrefused hwell with ⟨reason, hreason⟩
      refine iff_of_false ?_ hwell
      intro hok
      rcases hok with ⟨config, hconfig⟩
      rw [hreason] at hconfig
      cases hconfig
  · intro state hstate fuel hfuel
    have hsound := hstate.sound
    rcases normalizeAndValidateMenuConfig_spec (serializeEditorState state) hfuel with
      ⟨outcome, hends, haccepted, -⟩
    rw [hends, haccepted (serialize_wellFormed hsound.1),
      normalized_eq_self (serialize_allStored hsound.2)]

/-- Two groups in a cycle, and a third that leads into it. -/
def Sample.intoCycle : SystemMenuConfig :=
  { groups := [⟨"custom:a", some "custom:b", none, 0⟩, ⟨"custom:b", some "custom:a", none, 1⟩,
      ⟨"custom:c", some "custom:a", none, 2⟩]
    items := [] }

/-- The group that leads into the cycle does not make its own walk endless. -/
example : normalizeAndValidateMenuConfig 4 Sample.intoCycle =
    some (.error "分组层级存在循环：custom:a") := by decide +kernel

/-- A load, a move and a rename; the rows are saved and stored as they are. -/
theorem save_check_renamed :
    (∃ outcome : Except String SystemMenuConfig, (∀ fuel, 4 ≤ fuel →
      normalizeAndValidateMenuConfig fuel Sample.intoCycle = some outcome) ∧
      ((∃ config, outcome = .ok config) ↔ Sample.intoCycle.WellFormed)) ∧
    ∀ fuel, 2 ≤ fuel →
      normalizeAndValidateMenuConfig fuel (serializeEditorState
          (editorStep (editorStep (buildEditorState Sample.menu.items emptyMenuConfig.listed)
            Sample.outOfGroup) (.rename (.item "assets") "  台账 "))) =
        some (.ok (serializeEditorState
          (editorStep (editorStep (buildEditorState Sample.menu.items emptyMenuConfig.listed)
            Sample.outOfGroup) (.rename (.item "assets") "  台账 ")))) := by
  have hpage : PageState Sample.menu
      (editorStep (editorStep (buildEditorState Sample.menu.items emptyMenuConfig.listed)
        Sample.outOfGroup) (.rename (.item "assets") "  台账 ")) := by
    apply PageState.step
    · apply PageState.step
      · exact PageState.load StoredConfig.reset
      · trivial
      · trivial
    · trivial
    · trivial
  refine ⟨(save_check Sample.menu).1 Sample.intoCycle, ?_⟩
  intro fuel hfuel
  exact (save_check Sample.menu).2 _ hpage fuel (le_trans (by decide +kernel) hfuel)

end Wbme.Menu

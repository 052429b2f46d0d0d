import Wbme.Menu.EditorState
import Wbme.Menu.Resolution

/-! # What editing does to the nodes

Each operation is described by the keys of the tree: moving and renaming keep them,
creating adds one and deleting takes one away.
-/

namespace Wbme.Menu

theorem forest_induction {motive : List EditorNode → Prop} (nil : motive [])
    (item : ∀ k name rest, motive rest → motive (.item k name :: rest))
    (group : ∀ k name children rest, motive children → motive rest →
      motive (.group k name children :: rest)) (nodes : List EditorNode) : motive nodes := by
  let single : EditorNode → Prop := fun node => ∀ rest, motive rest → motive (node :: rest)
  exact @EditorNode.rec_1 single motive
    (fun k name rest hrest => item k name rest hrest)
    (fun k name children hchildren rest hrest => group k name children rest hchildren hrest)
    nil (fun _ rest hnode hrest => hnode rest hrest) nodes

/-! ## The keys of a tree -/

variable {removed : EditorNode} {nodes : List EditorNode} {ref : EditorDragRef}

section Refs

@[simp] theorem refs_nil : refs [] = [] := rfl

@[simp] theorem refs_item (k : String) (name : Option String) (rest : List EditorNode) :
    refs (.item k name :: rest) = .item k :: refs rest := by
  simp [refs, allNodes, EditorNode.allNodes, EditorNode.ref]

@[simp] theorem refs_group (k : String) (name : Option String) (children rest : List EditorNode) :
    refs (.group k name children :: rest) = .group k :: (refs children ++ refs rest) := by
  simp [refs, allNodes, EditorNode.allNodes, EditorNode.ref]

theorem allNodes_eq_flatMap (nodes : List EditorNode) :
    allNodes nodes = nodes.flatMap EditorNode.allNodes := by
  induction nodes with
  | nil => rfl
  | cons node rest ih => simp [allNodes, ih]

theorem allNodes_append (nodes more : List EditorNode) :
    allNodes (nodes ++ more) = allNodes nodes ++ allNodes more := by
  simp [allNodes_eq_flatMap]

theorem refs_append (nodes more : List EditorNode) :
    refs (nodes ++ more) = refs nodes ++ refs more := by
  simp [refs, allNodes_append]

variable (node : EditorNode)

theorem refs_cons (rest : List EditorNode) : refs (node :: rest) = refs [node] ++ refs rest := refs_append [node] rest

theorem refs_perm {nodes nodes' : List EditorNode} (h : nodes.Perm nodes') :
    (refs nodes).Perm (refs nodes') := by
  unfold refs
  rw [allNodes_eq_flatMap, allNodes_eq_flatMap]
  exact (h.flatMap_right _).map _

theorem mem_allNodes_self (rest : List EditorNode) : node ∈ allNodes (node :: rest) := by
  cases node <;> simp [allNodes, EditorNode.allNodes]

theorem mem_allNodes_of_mem {node : EditorNode} (h : node ∈ nodes) : node ∈ allNodes nodes := by
  rcases List.append_of_mem h with ⟨before, after, heq⟩
  rw [heq, allNodes_append]
  exact List.mem_append_right _ (mem_allNodes_self node after)

theorem allNodes_children {nodes : List EditorNode} {k : String} {name : Option String}
    {children : List EditorNode} (h : .group k name children ∈ allNodes nodes)
    {node : EditorNode} (hnode : node ∈ allNodes children) : node ∈ allNodes nodes := by
  induction nodes using forest_induction with
  | nil => simp [allNodes] at h
  | item j old rest ih =>
      simp only [allNodes, EditorNode.allNodes, List.cons_append, List.nil_append,
        List.mem_cons] at h ⊢
      rcases h with h | h
      · cases h
      · exact Or.inr (ih h)
  | group j old inner rest ihInner ihRest =>
      simp only [allNodes, EditorNode.allNodes, List.cons_append, List.mem_cons,
        List.mem_append] at h ⊢
      rcases h with h | h | h
      · injection h with hk hname hchildren
        subst hchildren
        exact Or.inr (Or.inl hnode)
      · exact Or.inr (Or.inl (ihInner h))
      · exact Or.inr (Or.inr (ihRest h))

theorem node_unique (hnodup : (refs nodes).Nodup) {a b : EditorNode} (ha : a ∈ allNodes nodes)
    (hb : b ∈ allNodes nodes) (h : a.ref = b.ref) : a = b :=
  List.inj_on_of_nodup_map hnodup ha hb h

end Refs

/-! ## Finding a group -/

theorem findGroupNode_cons_item (k j : String) (name : Option String) (rest : List EditorNode) :
    findGroupNode k (.item j name :: rest) = findGroupNode k rest := by
  simp [findGroupNode, EditorNode.findGroup]

theorem findGroupNode_cons_group (k j : String) (name : Option String)
    (children rest : List EditorNode) :
    findGroupNode k (.group j name children :: rest) =
      if j = k then some (name, children)
      else (findGroupNode k children).or (findGroupNode k rest) := by
  by_cases h : j = k <;> simp [findGroupNode, EditorNode.findGroup, h]

theorem findGroupNode_mem {nodes : List EditorNode} {k : String} {name : Option String}
    {children : List EditorNode} (h : findGroupNode k nodes = some (name, children)) :
    .group k name children ∈ allNodes nodes := by
  induction nodes using forest_induction with
  | nil => simp [findGroupNode] at h
  | item j old rest ih =>
      rw [findGroupNode_cons_item] at h
      simpa [allNodes, EditorNode.allNodes] using ih h
  | group j old inner rest ihInner ihRest =>
      rw [findGroupNode_cons_group] at h
      simp only [allNodes, EditorNode.allNodes, List.cons_append, List.mem_cons, List.mem_append]
      by_cases hj : j = k
      · rw [if_pos hj] at h
        simp only [Option.some.injEq, Prod.mk.injEq] at h
        left
        rw [hj, h.1, h.2]
      · rw [if_neg hj] at h
        rcases Option.or_eq_some_iff.mp h with h | ⟨-, h⟩
        · exact Or.inr (Or.inl (ihInner h))
        · exact Or.inr (Or.inr (ihRest h))

theorem findGroupNode_isSome {nodes : List EditorNode} {k : String} :
    (findGroupNode k nodes).isSome ↔ .group k ∈ refs nodes := by
  induction nodes using forest_induction with
  | nil => simp [findGroupNode]
  | item j old rest ih => simp [findGroupNode_cons_item, ih]
  | group j old inner rest ihInner ihRest =>
      rw [findGroupNode_cons_group]
      by_cases hj : j = k
      · simp [hj]
      · simp [hj, Ne.symm hj, ihInner, ihRest]

/-! ## Changing a group -/

theorem updateGroup_cons_item (k j : String) (name : Option String) (rest : List EditorNode)
    (change : List EditorNode → List EditorNode) :
    updateGroup k change (.item j name :: rest) = .item j name :: updateGroup k change rest := by
  simp [updateGroup, EditorNode.updateGroup]

theorem updateGroup_cons_group (k j : String) (name : Option String)
    (children rest : List EditorNode) (change : List EditorNode → List EditorNode) :
    updateGroup k change (.group j name children :: rest) =
      .group j name (if j = k then change children else updateGroup k change children) ::
        updateGroup k change rest := by
  by_cases h : j = k <;> simp [updateGroup, EditorNode.updateGroup, h]

theorem updateGroup_absent {nodes : List EditorNode} {k : String}
    {change : List EditorNode → List EditorNode} (h : .group k ∉ refs nodes) :
    updateGroup k change nodes = nodes := by
  induction nodes using forest_induction with
  | nil => simp [updateGroup]
  | item j name rest ih =>
      rw [updateGroup_cons_item, ih (by simpa using h)]
  | group j name children rest ihChildren ihRest =>
      simp only [refs_group, List.mem_cons, List.mem_append, not_or] at h
      have hj : j ≠ k := fun heq => h.1 (heq ▸ rfl)
      rw [updateGroup_cons_group, if_neg hj, ihChildren h.2.1, ihRest h.2.2]

theorem updateGroup_refs {nodes : List EditorNode} {k : String} {extra : List EditorDragRef}
    {change : List EditorNode → List EditorNode} (hnodup : (refs nodes).Nodup)
    (hk : .group k ∈ refs nodes)
    (hchange : ∀ children, (refs (change children)).Perm (extra ++ refs children)) :
    (refs (updateGroup k change nodes)).Perm (extra ++ refs nodes) := by
  induction nodes using forest_induction with
  | nil => simp at hk
  | item j name rest ih =>
      rw [updateGroup_cons_item, refs_item, refs_item]
      simp only [refs_item, List.nodup_cons] at hnodup
      exact ((ih hnodup.2 (by simpa using hk)).cons _).trans List.perm_middle.symm
  | group j name children rest ihChildren ihRest =>
      rw [updateGroup_cons_group, refs_group, refs_group]
      simp only [refs_group, List.nodup_cons, List.mem_append, not_or, List.nodup_append] at hnodup
      rcases hnodup with ⟨hself, hchildren, hrest, hdisjoint⟩
      apply List.Perm.trans _ List.perm_middle.symm
      apply List.Perm.cons
      by_cases hj : j = k
      · subst hj
        rw [if_pos rfl, updateGroup_absent hself.2, ← List.append_assoc]
        exact (hchange children).append_right _
      · rw [if_neg hj]
        simp only [refs_group, List.mem_cons, List.mem_append, EditorDragRef.group.injEq,
          Ne.symm hj, false_or] at hk
        by_cases hin : .group k ∈ refs children
        · have hout : .group k ∉ refs rest := fun hmem => hdisjoint _ hin _ hmem rfl
          rw [updateGroup_absent hout, ← List.append_assoc]
          exact (ihChildren hchildren hin).append_right _
        · have hlater : .group k ∈ refs rest := by
            rcases hk with hk | hk
            · exact absurd hk hin
            · exact hk
          rw [updateGroup_absent hin]
          refine ((ihRest hrest hlater).append_left _).trans ?_
          rw [← List.append_assoc, ← List.append_assoc]
          exact List.perm_append_comm.append_right _

/-! ## Taking a node out -/

structure Taken (nodes : List EditorNode) (ref : EditorDragRef) (nodes' : List EditorNode)
    (removed : EditorNode) : Prop where
  mem : removed ∈ allNodes nodes
  key : removed.ref = ref
  rest : (refs nodes).Perm (refs [removed] ++ refs nodes')

theorem taken_of_findIdx {i : Nat} (h : nodes.findIdx? (fun node => node.ref = ref) = some i)
    (hremoved : nodes[i]? = some removed) : Taken nodes ref (nodes.eraseIdx i) removed := by
  rcases List.findIdx?_eq_some_iff_getElem.mp h with ⟨hi, hkey, -⟩
  have hget : nodes[i] = removed := by
    rw [List.getElem?_eq_getElem hi] at hremoved
    exact Option.some.inj hremoved
  rw [hget] at hkey
  have hperm := refs_perm (List.getElem_cons_eraseIdx_perm hi)
  rw [hget, refs_cons] at hperm
  exact ⟨mem_allNodes_of_mem (List.mem_of_getElem? hremoved), by simpa using hkey, hperm.symm⟩

theorem Taken.later {nodes nodes' : List EditorNode} (h : Taken nodes ref nodes' removed)
    (node : EditorNode) : Taken (node :: nodes) ref (node :: nodes') removed := by
  refine ⟨?_, h.key, ?_⟩
  · simpa [allNodes] using Or.inr h.mem
  · rw [refs_cons node nodes, refs_cons node nodes', ← List.append_assoc]
    refine (h.rest.append_left _).trans ?_
    rw [← List.append_assoc]
    exact List.perm_append_comm.append_right _

theorem Taken.below {children children' : List EditorNode}
    (h : Taken children ref children' removed) (k : String) (name : Option String)
    (rest : List EditorNode) :
    Taken (.group k name children :: rest) ref (.group k name children' :: rest) removed := by
  refine ⟨?_, h.key, ?_⟩
  · simp [allNodes, EditorNode.allNodes, h.mem]
  · rw [refs_group, refs_group]
    refine ((h.rest.append_right _).cons _).trans ?_
    rw [List.append_assoc]
    exact List.perm_middle.symm

theorem removeBelow_cons_item (ref : EditorDragRef) (k : String) (name : Option String)
    (rest : List EditorNode) :
    removeBelow ref (.item k name :: rest) =
      (removeBelow ref rest).map fun (nodes, removal) => (.item k name :: nodes, removal) := by
  simp [removeBelow, EditorNode.removeBelow]

theorem removeBelow_taken {nodes nodes' : List EditorNode} {ref : EditorDragRef}
    {removal : Removal} (h : removeBelow ref nodes = some (nodes', removal)) :
    Taken nodes ref nodes' removal.removed := by
  induction nodes using forest_induction generalizing nodes' removal with
  | nil => simp [removeBelow] at h
  | item k name rest ih =>
      rw [removeBelow_cons_item] at h
      rcases Option.map_eq_some_iff.mp h with ⟨⟨later, found⟩, hfound, heq⟩
      simp only [Prod.mk.injEq] at heq
      rw [← heq.1, ← heq.2]
      exact (ih hfound).later _
  | group k name children rest ihChildren ihRest =>
      unfold removeBelow at h
      cases hnode : (EditorNode.group k name children).removeBelow ref with
      | none =>
          simp only [hnode] at h
          rcases Option.map_eq_some_iff.mp h with ⟨⟨later, found⟩, hfound, heq⟩
          simp only [Prod.mk.injEq] at heq
          rw [← heq.1, ← heq.2]
          exact (ihRest hfound).later _
      | some pair =>
          rcases pair with ⟨changed, found⟩
          simp only [hnode, Option.some.injEq, Prod.mk.injEq] at h
          rw [← h.1, ← h.2]
          unfold EditorNode.removeBelow at hnode
          cases hidx : children.findIdx? (fun node => node.ref = ref) with
          | some i =>
              simp only [hidx] at hnode
              rcases Option.map_eq_some_iff.mp hnode with ⟨removed, hremoved, heq⟩
              simp only [Prod.mk.injEq] at heq
              rw [← heq.1, ← heq.2]
              exact (taken_of_findIdx hidx hremoved).below _ _ _
          | none =>
              simp only [hidx] at hnode
              rcases Option.map_eq_some_iff.mp hnode with ⟨⟨inner, removed⟩, hinner, heq⟩
              simp only [Prod.mk.injEq] at heq
              rw [← heq.1, ← heq.2]
              exact (ihChildren hinner).below _ _ _

theorem removeNode_taken {nodes nodes' : List EditorNode} {ref : EditorDragRef}
    {removal : Removal} (h : removeNode nodes ref = some (nodes', removal)) :
    Taken nodes ref nodes' removal.removed := by
  unfold removeNode at h
  cases hidx : nodes.findIdx? (fun node => node.ref = ref) with
  | some i =>
      simp only [hidx] at h
      rcases Option.map_eq_some_iff.mp h with ⟨removed, hremoved, heq⟩
      simp only [Prod.mk.injEq] at heq
      rw [← heq.1, ← heq.2]
      exact taken_of_findIdx hidx hremoved
  | none =>
      simp only [hidx] at h
      exact removeBelow_taken h

theorem removeBelow_isSome {nodes : List EditorNode} {ref : EditorDragRef}
    (hnone : nodes.findIdx? (fun node => node.ref = ref) = none) (h : ref ∈ refs nodes) :
    (removeBelow ref nodes).isSome := by
  induction nodes using forest_induction with
  | nil => simp at h
  | item k name rest ih =>
      rw [List.findIdx?_eq_none_iff] at hnone
      have hne : ref ≠ .item k := by
        have hself := hnone _ List.mem_cons_self
        simpa [EditorNode.ref, eq_comm] using hself
      have hrest := ih
        (List.findIdx?_eq_none_iff.mpr fun node hnode => hnone node (List.mem_cons_of_mem _ hnode))
        (by simpa [hne] using h)
      rw [removeBelow_cons_item, Option.isSome_map]
      exact hrest
  | group k name children rest ihChildren ihRest =>
      rw [List.findIdx?_eq_none_iff] at hnone
      have hne : ref ≠ .group k := by
        have hself := hnone _ List.mem_cons_self
        simpa [EditorNode.ref, eq_comm] using hself
      unfold removeBelow
      cases hnode : (EditorNode.group k name children).removeBelow ref with
      | some pair => rfl
      | none =>
          simp only
          rw [Option.isSome_map]
          apply ihRest
            (List.findIdx?_eq_none_iff.mpr fun node hnode => hnone node (List.mem_cons_of_mem _ hnode))
          simp only [refs_group, List.mem_cons, List.mem_append, hne, false_or] at h
          rcases h with h | h
          · -- the key would have been found among the children or below them
            exfalso
            unfold EditorNode.removeBelow at hnode
            cases hidx : children.findIdx? (fun node => node.ref = ref) with
            | some i =>
                rcases List.findIdx?_eq_some_iff_getElem.mp hidx with ⟨hi, -, -⟩
                simp [hidx, List.getElem?_eq_getElem hi] at hnode
            | none =>
                have hsome := ihChildren hidx h
                simp only [hidx, Option.map_eq_none_iff] at hnode
                rw [hnode] at hsome
                cases hsome
          · exact h

theorem removeNode_isSome {nodes : List EditorNode} {ref : EditorDragRef} (h : ref ∈ refs nodes) :
    (removeNode nodes ref).isSome := by
  unfold removeNode
  cases hidx : nodes.findIdx? (fun node => node.ref = ref) with
  | some i =>
      rcases List.findIdx?_eq_some_iff_getElem.mp hidx with ⟨hi, -, -⟩
      simp [List.getElem?_eq_getElem hi]
  | none => exact removeBelow_isSome hidx h

/-! ## Putting a node in -/

theorem insertAt_refs (nodes : List EditorNode) (index : Int) (node : EditorNode) :
    (refs (insertAt nodes index node)).Perm (refs [node] ++ refs nodes) := by
  unfold insertAt
  rw [← refs_append]
  apply refs_perm
  apply List.perm_insertIdx
  split <;> omega

/-! ## Renaming -/

theorem renameNodes_refs (target : EditorDragRef) (name : Option String)
    (nodes : List EditorNode) : refs (renameNodes target name nodes).1 = refs nodes := by
  induction nodes using forest_induction with
  | nil => simp [renameNodes]
  | item k old rest ih =>
      by_cases h : target = .item k
      · subst h
        simp [renameNodes, EditorNode.rename, ih]
      · simp [renameNodes, EditorNode.rename, h, ih]
  | group k old children rest ihChildren ihRest =>
      by_cases h : target = .group k
      · subst h
        simp [renameNodes, EditorNode.rename, ihRest]
      · simp [renameNodes, EditorNode.rename, h, ihChildren, ihRest]

section Operations

variable {state next : MenuEditorState}

theorem createGroupNode_refs (hnodup : (refs state.top).Nodup) {k : String}
    {parentKey name : Option String} (h : createGroupNode state k parentKey name = some next) :
    (refs next.top).Perm (.group k :: refs state.top) := by
  have happend : ∀ children,
      (refs (children ++ [.group k name []])).Perm ([.group k] ++ refs children) := by
    intro children
    rw [refs_append]
    exact List.perm_append_comm
  unfold createGroupNode at h
  cases parentKey with
  | none =>
      simp only [Option.some.injEq] at h
      rw [← h]
      exact happend state.top
  | some p =>
      by_cases hp : (findGroupNode p state.top).isNone
      · simp [hp] at h
      · simp only [hp, Bool.false_eq_true, if_false, Option.some.injEq] at h
        rw [← h]
        apply updateGroup_refs hnodup _ happend
        apply findGroupNode_isSome.mp
        cases hfind : findGroupNode p state.top with
        | none => simp [hfind] at hp
        | some _ => rfl

theorem deleteGroupNode_refs (hnodup : (refs state.top).Nodup) {k : String}
    (h : deleteGroupNode state k = some next) :
    (refs state.top).Perm (.group k :: refs next.top) := by
  unfold deleteGroupNode at h
  cases hfind : findGroupNode k state.top with
  | none => simp [hfind] at h
  | some pair =>
      rcases pair with ⟨name, children⟩
      by_cases hempty : children = []
      · subst hempty
        simp only [hfind, ne_eq, not_true_eq_false, if_false] at h
        rcases Option.map_eq_some_iff.mp h with ⟨⟨nodes, removal⟩, hremoved, heq⟩
        have htaken := removeNode_taken hremoved
        have hnode := node_unique hnodup htaken.mem (findGroupNode_mem hfind) htaken.key
        have hrest := htaken.rest
        rw [hnode] at hrest
        rw [← heq]
        simpa using hrest
      · simp [hfind, hempty] at h

theorem deleteGroupNode_isSome {k : String} :
    (deleteGroupNode state k).isSome ↔ ∃ name, findGroupNode k state.top = some (name, []) := by
  unfold deleteGroupNode
  cases hfind : findGroupNode k state.top with
  | none => simp
  | some pair =>
      rcases pair with ⟨name, children⟩
      by_cases hempty : children = []
      · have hsome : (removeNode state.top (.group k)).isSome :=
          removeNode_isSome (findGroupNode_isSome.mp (by simp [hfind]))
        simp [hempty, hsome]
      · simp [hempty]

variable {drag : EditorDragRef}

theorem not_mem_dragged (hnodup : (refs state.top).Nodup) {groupKey : String} {index : Int}
    (hguard : targetGuardFails state drag (.children groupKey index) = false)
    (hmem : removed ∈ allNodes state.top) (hkey : removed.ref = drag) :
    .group groupKey ∈ refs state.top ∧ .group groupKey ∉ refs [removed] := by
  unfold targetGuardFails at hguard
  by_cases hfound : (findGroupNode groupKey state.top).isNone
  · simp [hfound] at hguard
  · simp only [hfound, Bool.false_eq_true, if_false] at hguard
    have hin : .group groupKey ∈ refs state.top := by
      apply findGroupNode_isSome.mp
      simpa [Option.isSome_iff_ne_none] using hfound
    refine ⟨hin, ?_⟩
    cases removed with
    | item k name => simp
    | group k name children =>
        have hdrag : drag = .group k := hkey.symm
        subst hdrag
        simp only at hguard
        cases hgroup : findGroupNode k state.top with
        | none => simp [hgroup] at hguard
        | some pair =>
            rcases pair with ⟨name', children'⟩
            have hsame := node_unique hnodup hmem (findGroupNode_mem hgroup) rfl
            injection hsame with _ _ hchildren
            subst hchildren
            simp only [hgroup, decide_eq_false_iff_not, collectGroupSubtreeKeys, List.mem_cons,
              List.mem_filterMap, not_or, not_exists, not_and] at hguard
            simp only [refs_group, refs_nil, List.append_nil, List.mem_cons,
              EditorDragRef.group.injEq, not_or]
            exact ⟨hguard.1, fun hbelow => hguard.2 _ hbelow rfl⟩

theorem moveEditorNode_refs (hnodup : (refs state.top).Nodup) {target : EditorDropTarget}
    (h : moveEditorNode state drag target = some next) : (refs next.top).Perm (refs state.top) := by
  unfold moveEditorNode at h
  by_cases hguard : targetGuardFails state drag target
  · simp [hguard] at h
  · simp only [hguard, Bool.false_eq_true, if_false] at h
    cases hremove : removeNode state.top drag with
    | none => simp [hremove] at h
    | some pair =>
        rcases pair with ⟨nodes, removal⟩
        have htaken := removeNode_taken hremove
        simp only [hremove] at h
        cases target with
        | top index =>
            simp only [Option.some.injEq] at h
            rw [← h]
            exact (insertAt_refs _ _ _).trans htaken.rest.symm
        | children groupKey index =>
            simp only [Option.some.injEq] at h
            rw [← h]
            have hdragged := not_mem_dragged hnodup (by simpa using hguard) htaken.mem htaken.key
            have hleft : .group groupKey ∈ refs nodes := by
              rcases List.mem_append.mp (htaken.rest.mem_iff.mp hdragged.1) with hmem | hmem
              · exact absurd hmem hdragged.2
              · exact hmem
            have hnodes : (refs nodes).Nodup :=
              (List.nodup_append.mp (htaken.rest.nodup_iff.mp hnodup)).2.1
            exact (updateGroup_refs hnodes hleft fun _ => insertAt_refs _ _ _).trans
              htaken.rest.symm

theorem moveEditorNodeByOffset_refs (hnodup : (refs state.top).Nodup) {drag : EditorDragRef}
    {direction : Direction} (h : moveEditorNodeByOffset state drag direction = some next) :
    (refs next.top).Perm (refs state.top) := by
  unfold moveEditorNodeByOffset at h
  cases hlocate : locateNode state.top drag with
  | none => simp [hlocate] at h
  | some located =>
      simp only [hlocate] at h
      cases direction <;> simp only at h <;> split at h
      · cases h
      · exact moveEditorNode_refs hnodup h
      · cases h
      · exact moveEditorNode_refs hnodup h

theorem renameEditorNode_refs {target : EditorDragRef} {rawName : String}
    (h : renameEditorNode state target rawName = some next) : refs next.top = refs state.top := by
  unfold renameEditorNode at h
  generalize (if trim rawName = "" then none else some (trim rawName)) = name at h
  by_cases hfound : (renameNodes target name state.top).2
  · simp only [hfound, if_true, Option.some.injEq] at h
    rw [← h]
    exact renameNodes_refs _ _ _
  · simp [hfound] at h

/-- What an operation does to the keys. -/
def EditorOp.Effect (op : EditorOp) (before after : List EditorDragRef) : Prop :=
  match op with
  | .create random _ _ => after.Perm (.group (customGroupPrefix ++ random) :: before)
  | .delete k => before.Perm (.group k :: after)
  | .move _ _ => after.Perm before
  | .moveByOffset _ _ => after.Perm before
  | .rename _ _ => after.Perm before

theorem applyOp_effect (hnodup : (refs state.top).Nodup) {op : EditorOp}
    (h : applyOp state op = some next) : op.Effect (refs state.top) (refs next.top) := by
  cases op with
  | create random parentKey name => exact createGroupNode_refs hnodup h
  | delete k => exact deleteGroupNode_refs hnodup h
  | move drag target => exact moveEditorNode_refs hnodup h
  | moveByOffset drag direction => exact moveEditorNodeByOffset_refs hnodup h
  | rename target rawName => exact List.Perm.of_eq (renameEditorNode_refs h)

end Operations

end Wbme.Menu

import Wbme.Menu.EditorMoves
import Wbme.Lib.Reinsert

/-! # Where a moved node goes

A move is a change of two containers: the one the node is taken from and the one it is put into.
The order of all other siblings stays, and a move down is undone by a move up.
-/

namespace Wbme.Menu

open Lib

/-! ## Containers -/

def updateContainer (container : Container) (change : List EditorNode → List EditorNode)
    (nodes : List EditorNode) : List EditorNode :=
  match container with
  | .top => change nodes
  | .group nodeKey => updateGroup nodeKey change nodes

def StandIn (nodes : List EditorNode) (container : Container) (siblings : List EditorNode) : Prop :=
  match container with
  | .top => siblings = nodes
  | .group nodeKey => ∃ name, .group nodeKey name siblings ∈ allNodes nodes

variable {nodes : List EditorNode} {k : String} {name : Option String} {node : EditorNode}

theorem mem_refs (h : node ∈ allNodes nodes) : node.ref ∈ refs nodes := List.mem_map_of_mem h

theorem group_mem_refs {children : List EditorNode} (h : .group k name children ∈ allNodes nodes) :
    .group k ∈ refs nodes := mem_refs h

theorem exists_group (h : .group k ∈ refs nodes) :
    ∃ name children, .group k name children ∈ allNodes nodes := by
  obtain ⟨⟨name, children⟩, hfind⟩ := Option.isSome_iff_exists.mp (findGroupNode_isSome.mpr h)
  exact ⟨name, children, findGroupNode_mem hfind⟩

theorem mem_allNodes_item {rest : List EditorNode} :
    node ∈ allNodes (.item k name :: rest) ↔ node = .item k name ∨ node ∈ allNodes rest := by
  simp [allNodes, EditorNode.allNodes]

theorem mem_allNodes_group {children rest : List EditorNode} :
    node ∈ allNodes (.group k name children :: rest) ↔
      node = .group k name children ∨ node ∈ allNodes children ∨ node ∈ allNodes rest := by
  simp [allNodes, EditorNode.allNodes]

theorem StandIn.mem {nodes siblings : List EditorNode} {container : Container}
    (h : StandIn nodes container siblings) {node : EditorNode} (hnode : node ∈ siblings) :
    node ∈ allNodes nodes := by
  cases container with
  | top =>
      have heq : siblings = nodes := h
      exact mem_allNodes_of_mem (heq ▸ hnode)
  | group k =>
      obtain ⟨name, hgroup⟩ := h
      exact allNodes_children hgroup (mem_allNodes_of_mem hnode)

theorem StandIn.unique {nodes : List EditorNode} (hnodup : (refs nodes).Nodup)
    {container : Container} {siblings siblings' : List EditorNode}
    (h : StandIn nodes container siblings) (h' : StandIn nodes container siblings') :
    siblings = siblings' := by
  cases container with
  | top =>
      have heq : siblings = nodes := h
      have heq' : siblings' = nodes := h'
      rw [heq, heq']
  | group k =>
      obtain ⟨name, hgroup⟩ := h
      obtain ⟨name', hgroup'⟩ := h'
      have hsame := node_unique hnodup hgroup hgroup' rfl
      injection hsame

/-! ## Changing a container -/

theorem updateGroup_comp (k : String) (f g : List EditorNode → List EditorNode)
    (nodes : List EditorNode) :
    updateGroup k f (updateGroup k g nodes) = updateGroup k (fun l => f (g l)) nodes := by
  induction nodes using forest_induction with
  | nil => simp [updateGroup]
  | item j name rest ih => rw [updateGroup_cons_item, updateGroup_cons_item,
      updateGroup_cons_item, ih]
  | group j name children rest ihChildren ihRest =>
      rw [updateGroup_cons_group, updateGroup_cons_group, updateGroup_cons_group, ihRest]
      by_cases hj : j = k
      · rw [if_pos hj, if_pos hj, if_pos hj]
      · rw [if_neg hj, if_neg hj, if_neg hj, ihChildren]

theorem updateContainer_comp (container : Container) (f g : List EditorNode → List EditorNode)
    (nodes : List EditorNode) :
    updateContainer container f (updateContainer container g nodes) =
      updateContainer container (fun l => f (g l)) nodes := by
  cases container with
  | top => rfl
  | group k => exact updateGroup_comp k f g nodes

theorem updateGroup_id (k : String) (nodes : List EditorNode) :
    updateGroup k (fun l => l) nodes = nodes := by
  induction nodes using forest_induction with
  | nil => simp [updateGroup]
  | item j name rest ih => rw [updateGroup_cons_item, ih]
  | group j name children rest ihChildren ihRest =>
      rw [updateGroup_cons_group, ihChildren, ihRest, ite_self]

theorem updateContainer_id (container : Container) (nodes : List EditorNode) :
    updateContainer container (fun l => l) nodes = nodes := by
  cases container with
  | top => rfl
  | group k => exact updateGroup_id k nodes

theorem updateGroup_congr {nodes : List EditorNode} {k : String}
    {f g : List EditorNode → List EditorNode}
    (h : ∀ name children, .group k name children ∈ allNodes nodes → f children = g children) :
    updateGroup k f nodes = updateGroup k g nodes := by
  induction nodes using forest_induction with
  | nil => simp [updateGroup]
  | item j name rest ih =>
      rw [updateGroup_cons_item, updateGroup_cons_item, ih fun name' children hmem =>
        h name' children (mem_allNodes_item.mpr (.inr hmem))]
  | group j name children rest ihChildren ihRest =>
      have hrest : updateGroup k f rest = updateGroup k g rest :=
        ihRest fun name' inner hmem =>
          h name' inner (mem_allNodes_group.mpr (.inr (.inr hmem)))
      rw [updateGroup_cons_group, updateGroup_cons_group, hrest]
      by_cases hj : j = k
      · subst hj
        rw [if_pos rfl, if_pos rfl, h name children (mem_allNodes_group.mpr (.inl rfl))]
      · rw [if_neg hj, if_neg hj, ihChildren fun name' inner hmem =>
          h name' inner (mem_allNodes_group.mpr (.inr (.inl hmem)))]

theorem updateContainer_congr {nodes : List EditorNode} (hnodup : (refs nodes).Nodup)
    {container : Container} {siblings : List EditorNode} (hin : StandIn nodes container siblings)
    {f g : List EditorNode → List EditorNode} (h : f siblings = g siblings) :
    updateContainer container f nodes = updateContainer container g nodes := by
  cases container with
  | top =>
      have heq : siblings = nodes := hin
      rw [heq] at h
      exact h
  | group k =>
      refine updateGroup_congr fun name children hmem => ?_
      have hstand : StandIn nodes (.group k) children := ⟨name, hmem⟩
      rw [StandIn.unique hnodup hstand hin, h]

/-! ## One place for each node -/

/-- The nodes that stand in a group. -/
def EditorNode.places : EditorNode → List (EditorDragRef × Container)
  | .item _ _ => []
  | .group nodeKey _ children => children.map fun node => (node.ref, .group nodeKey)

def places (nodes : List EditorNode) : List (EditorDragRef × Container) :=
  nodes.map (fun node => (node.ref, .top)) ++ (allNodes nodes).flatMap EditorNode.places

/-- The keys that stand in groups. -/
def keysBelow (nodes : List EditorNode) : List EditorDragRef :=
  ((allNodes nodes).flatMap EditorNode.places).map Prod.fst

theorem refs_perm_places (nodes : List EditorNode) :
    (refs nodes).Perm (nodes.map EditorNode.ref ++ keysBelow nodes) := by
  induction nodes using forest_induction with
  | nil => exact List.Perm.refl _
  | item k name rest ih =>
      have hbelow : keysBelow (.item k name :: rest) = keysBelow rest := by
        simp [keysBelow, allNodes, EditorNode.allNodes, EditorNode.places]
      rw [refs_item, hbelow]
      exact ih.cons _
  | group k name children rest ihChildren ihRest =>
      have hbelow : keysBelow (.group k name children :: rest) =
          children.map EditorNode.ref ++ keysBelow children ++ keysBelow rest := by
        simp [keysBelow, allNodes, EditorNode.allNodes, EditorNode.places, Function.comp_def]
      rw [refs_group, hbelow]
      refine List.Perm.cons _ ?_
      show (refs children ++ refs rest).Perm (rest.map EditorNode.ref ++
        (children.map EditorNode.ref ++ keysBelow children ++ keysBelow rest))
      refine (ihChildren.append ihRest).trans ?_
      rw [← List.append_assoc, ← List.append_assoc]
      refine List.Perm.append_right _ ?_
      exact List.perm_append_comm

theorem places_nodup (hnodup : (refs nodes).Nodup) : ((places nodes).map Prod.fst).Nodup := by
  have hkeys : (places nodes).map Prod.fst = nodes.map EditorNode.ref ++ keysBelow nodes := by
    simp [places, keysBelow, Function.comp_def]
  rw [hkeys]
  exact (refs_perm_places nodes).nodup_iff.mp hnodup

theorem StandIn.place {nodes siblings : List EditorNode} {container : Container}
    (h : StandIn nodes container siblings) {node : EditorNode} (hnode : node ∈ siblings) :
    (node.ref, container) ∈ places nodes := by
  cases container with
  | top =>
      have heq : siblings = nodes := h
      subst heq
      exact List.mem_append_left _ (List.mem_map.mpr ⟨node, hnode, rfl⟩)
  | group k =>
      obtain ⟨name, hgroup⟩ := h
      refine List.mem_append_right _ (List.mem_flatMap.mpr ⟨_, hgroup, ?_⟩)
      exact List.mem_map.mpr ⟨node, hnode, rfl⟩

theorem container_unique {nodes siblings siblings' : List EditorNode} {c c' : Container}
    (hnodup : (refs nodes).Nodup) (h : StandIn nodes c siblings) (h' : StandIn nodes c' siblings')
    {node node' : EditorNode} (hnode : node ∈ siblings) (hnode' : node' ∈ siblings')
    (href : node.ref = node'.ref) : c = c' := by
  have hsame := List.inj_on_of_nodup_map (places_nodup hnodup) (h.place hnode)
    (h'.place hnode') href
  injection hsame

theorem refs_below {nodes : List EditorNode} {k : String} {name : Option String}
    {children : List EditorNode} (h : .group k name children ∈ allNodes nodes) :
    (EditorDragRef.group k :: refs children).Sublist (refs nodes) := by
  induction nodes using forest_induction with
  | nil => simp [allNodes] at h
  | item j old rest ih =>
      rw [refs_item]
      cases mem_allNodes_item.mp h with
      | inl heq => cases heq
      | inr hrest => exact (ih hrest).cons _
  | group j old inner rest ihInner ihRest =>
      rw [refs_group]
      cases mem_allNodes_group.mp h with
      | inl heq =>
          injection heq with hk hname hchildren
          subst hk
          subst hchildren
          exact (List.sublist_append_left _ _).cons_cons _
      | inr hlater =>
          cases hlater with
          | inl hinner =>
              exact ((ihInner hinner).trans (List.sublist_append_left _ _)).cons _
          | inr hrest =>
              exact ((ihRest hrest).trans (List.sublist_append_right _ _)).cons _

theorem keys_sublist (nodes : List EditorNode) : (nodes.map EditorNode.ref).Sublist (refs nodes) := by
  induction nodes with
  | nil => exact List.Sublist.refl _
  | cons node rest ih =>
      cases node with
      | item k name =>
          rw [refs_item]
          exact ih.cons_cons _
      | group k name children =>
          rw [refs_group]
          exact (ih.trans (List.sublist_append_right _ _)).cons_cons _

theorem StandIn.nodup {nodes siblings : List EditorNode} {container : Container}
    (hnodup : (refs nodes).Nodup) (h : StandIn nodes container siblings) :
    (siblings.map EditorNode.ref).Nodup := by
  cases container with
  | top =>
      have heq : siblings = nodes := h
      rw [heq]
      exact hnodup.sublist (keys_sublist nodes)
  | group k =>
      obtain ⟨name, hgroup⟩ := h
      have hbelow : (refs siblings).Sublist (refs nodes) :=
        (List.sublist_cons_self _ _).trans (refs_below hgroup)
      exact hnodup.sublist ((keys_sublist siblings).trans hbelow)

theorem place_unique {nodes siblings siblings' : List EditorNode} {c c' : Container}
    (hnodup : (refs nodes).Nodup) (h : StandIn nodes c siblings) (h' : StandIn nodes c' siblings')
    {node node' : EditorNode} {i i' : Nat} (hi : siblings[i]? = some node)
    (hi' : siblings'[i']? = some node') (href : node.ref = node'.ref) :
    c = c' ∧ siblings = siblings' ∧ i = i' ∧ node = node' := by
  have hc : c = c' := container_unique hnodup h h' (List.mem_of_getElem? hi)
    (List.mem_of_getElem? hi') href
  subst hc
  have hsame : siblings = siblings' := h.unique hnodup h'
  subst hsame
  have hindex : i = i' := by
    have hlt : i < (siblings.map EditorNode.ref).length := by
      rw [List.length_map]
      exact (List.getElem?_eq_some_iff.mp hi).choose
    have hmap : (siblings.map EditorNode.ref)[i]? = (siblings.map EditorNode.ref)[i']? := by
      rw [List.getElem?_map, List.getElem?_map, hi, hi', Option.map_some, Option.map_some, href]
    exact (List.getElem?_inj hlt (h.nodup hnodup)).mp hmap
  subst hindex
  rw [hi] at hi'
  exact ⟨rfl, rfl, rfl, Option.some.inj hi'⟩

/-! ## Where a node is taken from -/

structure StandsAt (nodes : List EditorNode) (container : Container) (index : Nat)
    (node : EditorNode) (siblings : List EditorNode) : Prop where
  container : StandIn nodes container siblings
  index : siblings[index]? = some node

theorem removeBelow_place {nodes nodes' : List EditorNode} (hnodup : (refs nodes).Nodup)
    {drag : EditorDragRef} {removal : Removal}
    (h : removeBelow drag nodes = some (nodes', removal)) :
    ∃ k siblings, removal.container = .group k ∧
      StandsAt nodes (.group k) removal.index removal.removed siblings ∧
      nodes' = updateGroup k (·.eraseIdx removal.index) nodes := by
  induction nodes using forest_induction generalizing nodes' removal with
  | nil => simp [removeBelow] at h
  | item j name rest ih =>
      rw [removeBelow_cons_item] at h
      rcases Option.map_eq_some_iff.mp h with ⟨⟨later, found⟩, hfound, heq⟩
      simp only [Prod.mk.injEq] at heq
      obtain ⟨hnodes, hfound'⟩ := heq
      subst hfound'
      rw [refs_item, List.nodup_cons] at hnodup
      obtain ⟨k, siblings, hk, ⟨⟨old, hin⟩, hindex⟩, hlater⟩ := ih hnodup.2 hfound
      refine ⟨k, siblings, hk, ⟨⟨old, mem_allNodes_item.mpr (.inr hin)⟩, hindex⟩, ?_⟩
      rw [updateGroup_cons_item, ← hlater]
      exact hnodes.symm
  | group j name children rest ihChildren ihRest =>
      rw [refs_group, List.nodup_cons, List.nodup_append, List.mem_append, not_or] at hnodup
      obtain ⟨⟨hself, hselfRest⟩, hchildren, hrest, hdisjoint⟩ := hnodup
      unfold removeBelow at h
      cases hnode : (EditorNode.group j name children).removeBelow drag with
      | none =>
          simp only [hnode] at h
          rcases Option.map_eq_some_iff.mp h with ⟨⟨later, found⟩, hfound, heq⟩
          simp only [Prod.mk.injEq] at heq
          obtain ⟨hnodes, hfound'⟩ := heq
          subst hfound'
          obtain ⟨k, siblings, hk, ⟨⟨old, hin⟩, hindex⟩, hlater⟩ := ihRest hrest hfound
          have hkrest : .group k ∈ refs rest := group_mem_refs hin
          have hkj : j ≠ k := fun heq => hselfRest (heq ▸ hkrest)
          have habsent : .group k ∉ refs children := fun hmem => hdisjoint _ hmem _ hkrest rfl
          refine ⟨k, siblings, hk,
            ⟨⟨old, mem_allNodes_group.mpr (.inr (.inr hin))⟩, hindex⟩, ?_⟩
          rw [updateGroup_cons_group, if_neg hkj, updateGroup_absent habsent, ← hlater]
          exact hnodes.symm
      | some pair =>
          rcases pair with ⟨changed, found⟩
          simp only [hnode, Option.some.injEq, Prod.mk.injEq] at h
          obtain ⟨hnodes, hfound'⟩ := h
          subst hfound'
          unfold EditorNode.removeBelow at hnode
          cases hidx : children.findIdx? (fun node => node.ref = drag) with
          | some i =>
              simp only [hidx] at hnode
              rcases Option.map_eq_some_iff.mp hnode with ⟨removed, hremoved, heq⟩
              simp only [Prod.mk.injEq] at heq
              obtain ⟨hchanged, hfound⟩ := heq
              subst hfound
              refine ⟨j, children, rfl,
                ⟨⟨name, mem_allNodes_group.mpr (.inl rfl)⟩, hremoved⟩, ?_⟩
              rw [updateGroup_cons_group, if_pos rfl, updateGroup_absent hselfRest, ← hnodes,
                ← hchanged]
          | none =>
              simp only [hidx] at hnode
              rcases Option.map_eq_some_iff.mp hnode with ⟨⟨inner, removed⟩, hinner, heq⟩
              simp only [Prod.mk.injEq] at heq
              obtain ⟨hchanged, hfound⟩ := heq
              subst hfound
              obtain ⟨k, siblings, hk, ⟨⟨old, hin⟩, hindex⟩, hlater⟩ := ihChildren hchildren hinner
              have hkchildren : .group k ∈ refs children := group_mem_refs hin
              have hkj : j ≠ k := fun heq => hself (heq ▸ hkchildren)
              have habsent : .group k ∉ refs rest := fun hmem => hdisjoint _ hkchildren _ hmem rfl
              refine ⟨k, siblings, hk,
                ⟨⟨old, mem_allNodes_group.mpr (.inr (.inl hin))⟩, hindex⟩, ?_⟩
              rw [updateGroup_cons_group, if_neg hkj, updateGroup_absent habsent, ← hnodes,
                ← hchanged, hlater]

theorem removeNode_place {nodes nodes' : List EditorNode} (hnodup : (refs nodes).Nodup)
    {drag : EditorDragRef} {removal : Removal}
    (h : removeNode nodes drag = some (nodes', removal)) :
    ∃ siblings, StandsAt nodes removal.container removal.index removal.removed siblings ∧
      nodes' = updateContainer removal.container (·.eraseIdx removal.index) nodes := by
  unfold removeNode at h
  cases hidx : nodes.findIdx? (fun node => node.ref = drag) with
  | some i =>
      simp only [hidx] at h
      rcases Option.map_eq_some_iff.mp h with ⟨removed, hremoved, heq⟩
      simp only [Prod.mk.injEq] at heq
      obtain ⟨hnodes, hremoval⟩ := heq
      subst hremoval
      exact ⟨nodes, ⟨rfl, hremoved⟩, hnodes.symm⟩
  | none =>
      simp only [hidx] at h
      obtain ⟨k, siblings, hk, hplace, hnodes⟩ := removeBelow_place hnodup h
      rw [hk]
      exact ⟨siblings, hplace, hnodes⟩

/-! ## The order of siblings -/

/-- A node without what lies below it: its key and its name. -/
abbrev Label := EditorDragRef × Option String

def EditorNode.label : EditorNode → Label
  | .item itemKey nameOverride => (.item itemKey, nameOverride)
  | .group nodeKey nameOverride _ => (.group nodeKey, nameOverride)

def labels (nodes : List EditorNode) : List Label := nodes.map EditorNode.label

theorem label_key (node : EditorNode) : node.label.1 = node.ref := by
  cases node <;> rfl

theorem labels_keys (nodes : List EditorNode) :
    (labels nodes).map Prod.fst = nodes.map EditorNode.ref := by
  simp [labels, label_key]

def siblings (nodes : List EditorNode) : Container → Option (List Label)
  | .top => some (labels nodes)
  | .group nodeKey => (findGroupNode nodeKey nodes).map fun found => labels found.2

theorem siblings_of_standIn {nodes : List EditorNode} (hnodup : (refs nodes).Nodup)
    {container : Container} {list : List EditorNode} (h : StandIn nodes container list) :
    siblings nodes container = some (labels list) := by
  cases container with
  | top =>
      have heq : list = nodes := h
      rw [heq]
      rfl
  | group k =>
      obtain ⟨name, hgroup⟩ := h
      have hsome := findGroupNode_isSome.mpr (group_mem_refs hgroup)
      obtain ⟨⟨name', list'⟩, hfind⟩ := Option.isSome_iff_exists.mp hsome
      have hstand : StandIn nodes (.group k) list := ⟨name, hgroup⟩
      have hstand' : StandIn nodes (.group k) list' := ⟨name', findGroupNode_mem hfind⟩
      rw [siblings, hfind, hstand.unique hnodup hstand']
      rfl

theorem siblings_absent (h : .group k ∉ refs nodes) : siblings nodes (.group k) = none := by
  have hnone : findGroupNode k nodes = none := by
    cases hfind : findGroupNode k nodes with
    | none => rfl
    | some found =>
        have hsome : (findGroupNode k nodes).isSome := by rw [hfind]; rfl
        exact absurd (findGroupNode_isSome.mp hsome) h
  rw [siblings, hnone]
  rfl

theorem updateGroup_labels (k : String) (change : List EditorNode → List EditorNode)
    (nodes : List EditorNode) : labels (updateGroup k change nodes) = labels nodes := by
  induction nodes with
  | nil => simp [updateGroup]
  | cons node rest ih =>
      cases node with
      | item j name =>
          rw [updateGroup_cons_item]
          show EditorNode.label _ :: labels _ = EditorNode.label _ :: labels _
          rw [ih]
      | group j name children =>
          rw [updateGroup_cons_group]
          show EditorNode.label _ :: labels _ = EditorNode.label _ :: labels _
          rw [ih]
          rfl

theorem group_updated {nodes : List EditorNode} (hnodup : (refs nodes).Nodup) {k j : String}
    (change : List EditorNode → List EditorNode) {name : Option String} {list : List EditorNode}
    (h : .group j name list ∈ allNodes nodes)
    (hkeep : ∀ name' children, .group k name' children ∈ allNodes nodes →
      .group j name list ∈ allNodes children → .group j name list ∈ allNodes (change children)) :
    ∃ list', .group j name list' ∈ allNodes (updateGroup k change nodes) ∧
      (j = k → list' = change list) ∧ (j ≠ k → labels list' = labels list) := by
  induction nodes using forest_induction with
  | nil => simp [allNodes] at h
  | item i old rest ih =>
      rw [refs_item, List.nodup_cons] at hnodup
      cases mem_allNodes_item.mp h with
      | inl heq => cases heq
      | inr hrest =>
          obtain ⟨list', hmem, heffect⟩ := ih hnodup.2 hrest fun name' children hk =>
            hkeep name' children (mem_allNodes_item.mpr (.inr hk))
          refine ⟨list', ?_, heffect⟩
          rw [updateGroup_cons_item]
          exact mem_allNodes_item.mpr (.inr hmem)
  | group i old children rest ihChildren ihRest =>
      rw [refs_group, List.nodup_cons, List.nodup_append, List.mem_append, not_or] at hnodup
      obtain ⟨⟨hself, -⟩, hchildren, hrest, -⟩ := hnodup
      rw [updateGroup_cons_group]
      cases mem_allNodes_group.mp h with
      | inl heq =>
          injection heq with hj hname hlist
          subst hj
          subst hname
          subst hlist
          refine ⟨_, mem_allNodes_group.mpr (.inl rfl), ?_, ?_⟩
          · intro hk
            rw [if_pos hk]
          · intro hk
            rw [if_neg hk, updateGroup_labels]
      | inr hlater =>
          cases hlater with
          | inl hinner =>
              by_cases hi : i = k
              · -- the group lies in the one that is changed
                have hjk : j ≠ k := fun heq => hself (by
                  rw [hi, ← heq]
                  exact group_mem_refs hinner)
                have hkept := hkeep old children (by
                  rw [← hi]
                  exact mem_allNodes_group.mpr (.inl rfl)) hinner
                rw [if_pos hi]
                exact ⟨list, mem_allNodes_group.mpr (.inr (.inl hkept)),
                  fun heq => absurd heq hjk, fun _ => rfl⟩
              · obtain ⟨list', hmem, heffect⟩ := ihChildren hchildren hinner
                  fun name' inner hk =>
                    hkeep name' inner (mem_allNodes_group.mpr (.inr (.inl hk)))
                rw [if_neg hi]
                exact ⟨list', mem_allNodes_group.mpr (.inr (.inl hmem)), heffect⟩
          | inr hinRest =>
              obtain ⟨list', hmem, heffect⟩ := ihRest hrest hinRest fun name' inner hk =>
                hkeep name' inner (mem_allNodes_group.mpr (.inr (.inr hk)))
              exact ⟨list', mem_allNodes_group.mpr (.inr (.inr hmem)), heffect⟩

theorem StandIn.updated {nodes : List EditorNode} (hnodup : (refs nodes).Nodup)
    {changed container : Container} {old list : List EditorNode}
    (change : List EditorNode → List EditorNode) (hold : StandIn nodes changed old)
    (h : StandIn nodes container list)
    (hkeep : ∀ k name, container = .group k → .group k name list ∈ allNodes old →
      .group k name list ∈ allNodes (change old)) :
    ∃ list', StandIn (updateContainer changed change nodes) container list' ∧
      (container = changed → list' = change list) ∧
      (container ≠ changed → labels list' = labels list) := by
  cases changed with
  | top =>
      have hnodes : old = nodes := hold
      subst hnodes
      cases container with
      | top =>
          have hlist : list = old := h
          subst hlist
          exact ⟨change list, rfl, fun _ => rfl, fun hne => absurd rfl hne⟩
      | group j =>
          obtain ⟨name, hgroup⟩ := h
          exact ⟨list, ⟨name, hkeep j name rfl hgroup⟩, (fun heq => by cases heq), fun _ => rfl⟩
  | group k =>
      cases container with
      | top =>
          have hlist : list = nodes := h
          subst hlist
          exact ⟨updateGroup k change list, rfl, (fun heq => by cases heq),
            fun _ => updateGroup_labels k change list⟩
      | group j =>
          obtain ⟨name, hgroup⟩ := h
          obtain ⟨list', hmem, hsame, hother⟩ := group_updated (k := k) hnodup change
            hgroup fun name' children hk hinner => by
              have hstand : StandIn nodes (.group k) children := ⟨name', hk⟩
              rw [StandIn.unique hnodup hstand hold] at hinner ⊢
              exact hkeep j name rfl hinner
          exact ⟨list', ⟨name, hmem⟩, fun heq => hsame (Container.group.inj heq),
            fun hne => hother fun heq => hne (heq ▸ rfl)⟩

/-! ## Taking out and putting in -/

theorem mem_eraseIdx {nodes : List EditorNode} {i : Nat} {removed node : EditorNode}
    (h : nodes[i]? = some removed) (hnode : node ∈ allNodes nodes)
    (hother : node ∉ allNodes [removed]) : node ∈ allNodes (nodes.eraseIdx i) := by
  obtain ⟨hlt, hget⟩ := List.getElem?_eq_some_iff.mp h
  have hperm := List.getElem_cons_eraseIdx_perm hlt
  rw [allNodes_eq_flatMap] at hnode
  have hmem := (hperm.flatMap_right EditorNode.allNodes).mem_iff.mpr hnode
  rw [hget, List.flatMap_cons, List.mem_append] at hmem
  cases hmem with
  | inl hself => exact absurd (by simpa [allNodes] using hself) hother
  | inr hrest =>
      rw [allNodes_eq_flatMap]
      exact hrest

theorem insertAt_ofNat (nodes : List EditorNode) (index : Nat) (node : EditorNode) :
    insertAt nodes index node = nodes.insertIdx (min index nodes.length) node := by
  have hstart : (min (index : Int) nodes.length) = ((min index nodes.length : Nat) : Int) := by
    omega
  have hnonneg : ¬ ((min index nodes.length : Nat) : Int) < 0 := by omega
  unfold insertAt
  simp only [hstart, hnonneg, if_false, Int.toNat_natCast]

theorem mem_insertIdx {index : Nat} {inserted node : EditorNode} (h : index ≤ nodes.length) :
    node ∈ allNodes (nodes.insertIdx index inserted) ↔
      node ∈ allNodes [inserted] ∨ node ∈ allNodes nodes := by
  have hperm : (nodes.insertIdx index inserted).Perm (inserted :: nodes) := List.perm_insertIdx _ _ h
  rw [allNodes_eq_flatMap, (hperm.flatMap_right EditorNode.allNodes).mem_iff, List.flatMap_cons,
    List.mem_append, allNodes_eq_flatMap nodes]
  simp [allNodes]

/-- The index at which a node is put in, once it is out. -/
def insertIndex (sameContainer : Bool) (removed index : Nat) : Nat :=
  if sameContainer && decide (removed < index) then index - 1 else index

theorem moveEditorNode_updates {state next : MenuEditorState} (hnodup : (refs state.top).Nodup)
    {drag : EditorDragRef} {target : Container} {index : Nat}
    (h : moveEditorNode state drag (target.target index) = some next) :
    ∃ (removal : Removal) (list : List EditorNode),
      StandsAt state.top removal.container removal.index removal.removed list ∧
      Taken state.top drag
        (updateContainer removal.container (·.eraseIdx removal.index) state.top) removal.removed ∧
      (∀ k, target = .group k →
        .group k ∈ refs state.top ∧ .group k ∉ refs [removal.removed]) ∧
      next.top = updateContainer target
        (insertAt · (insertIndex (removal.container = target) removal.index index)
          removal.removed)
        (updateContainer removal.container (·.eraseIdx removal.index) state.top) := by
  unfold moveEditorNode at h
  cases hguard : targetGuardFails state drag (target.target index) with
  | true => simp [hguard] at h
  | false =>
      simp only [hguard, Bool.false_eq_true, if_false] at h
      cases hremove : removeNode state.top drag with
      | none => simp [hremove] at h
      | some pair =>
          obtain ⟨nodes, removal⟩ := pair
          have htaken := removeNode_taken hremove
          obtain ⟨list, hplace, hnodes⟩ := removeNode_place hnodup hremove
          simp only [hremove] at h
          subst hnodes
          refine ⟨removal, list, hplace, htaken, ?_, ?_⟩
          · intro k hk
            subst hk
            exact not_mem_dragged hnodup hguard htaken.mem htaken.key
          · have hindex : (if removal.container = targetContainer (target.target index) ∧
                (removal.index : Int) < (target.target index).index then
                  (target.target index).index - 1 else (target.target index).index) =
                ((insertIndex (removal.container = target) removal.index index : Nat) : Int) := by
              have hcontainer : targetContainer (target.target index) = target := by
                cases target <;> rfl
              have hat : (target.target index).index = index := by cases target <;> rfl
              rw [hcontainer, hat, insertIndex]
              by_cases hsame : removal.container = target
              · by_cases hlt : removal.index < index
                · have hint : (removal.index : Int) < index := by omega
                  simp [hsame, hlt, hint]
                  omega
                · have hint : ¬ (removal.index : Int) < index := by omega
                  simp [hsame, hlt, hint]
              · simp [hsame]
            rw [hindex] at h
            cases target with
            | top => exact (congrArg MenuEditorState.top (Option.some.inj h)).symm
            | group k => exact (congrArg MenuEditorState.top (Option.some.inj h)).symm

/-! ## What a move does -/

/-- A node moved to an index of a container: the same nodes stand in the tree, its subtree comes
along, it stands behind the siblings before the index and before the others, and all other
siblings keep their order. -/
structure Moved (before after : List EditorNode) (drag : EditorDragRef) (target : Container)
    (index : Nat) : Prop where
  nodes : (refs after).Perm (refs before)
  others : ∀ container, container ≠ target →
    siblings after container = (siblings before container).map (without Prod.fst drag)
  place : ∃ moved old, moved.ref = drag ∧ moved ∈ allNodes before ∧ moved ∈ allNodes after ∧
    siblings before target = some old ∧
    siblings after target =
      some (without Prod.fst drag (old.take index) ++
        moved.label :: without Prod.fst drag (old.drop index))

section Move

variable {nodes list : List EditorNode} {from_ : Container} {i : Nat} {moved : EditorNode}

variable {container : Container}

theorem siblings_taken (hnodup : (refs nodes).Nodup) (hplace : StandsAt nodes from_ i moved list)
    {old : List EditorNode} (h : StandIn nodes container old)
    (hout : ∀ k, container = .group k → .group k ∉ refs [moved]) :
    ∃ left, StandIn (updateContainer from_ (·.eraseIdx i) nodes) container left ∧
      (container = from_ → left = list.eraseIdx i) ∧
      (container ≠ from_ → labels left = labels old ∧ moved.ref ∉ old.map EditorNode.ref) := by
  obtain ⟨left, hleft, hsame, hother⟩ := StandIn.updated hnodup (·.eraseIdx i)
    hplace.container h fun k name hk hmem => mem_eraseIdx hplace.index hmem fun hinside =>
      hout k hk (group_mem_refs hinside)
  refine ⟨left, hleft, ?_, ?_⟩
  · intro heq
    subst heq
    rw [hsame rfl, h.unique hnodup hplace.container]
  · intro hne
    refine ⟨hother hne, fun hmem => ?_⟩
    obtain ⟨node, hnode, href⟩ := List.mem_map.mp hmem
    exact hne (container_unique hnodup h hplace.container hnode
      (List.mem_of_getElem? hplace.index) href)

theorem labels_left (hnodup : (refs nodes).Nodup) (hplace : StandsAt nodes from_ i moved list)
    {old left : List EditorNode} (h : StandIn nodes container old)
    (hsame : container = from_ → left = list.eraseIdx i)
    (hother : container ≠ from_ → labels left = labels old ∧ moved.ref ∉ old.map EditorNode.ref) :
    labels left = without Prod.fst moved.ref (labels old) := by
  by_cases heq : container = from_
  · subst heq
    have hlist : old = list := h.unique hnodup hplace.container
    have hkeys : ((labels list).map Prod.fst).Nodup := by
      rw [labels_keys]
      exact hplace.container.nodup hnodup
    have hget : (labels list)[i]? = some moved.label := by
      rw [labels, List.getElem?_map, hplace.index, Option.map_some]
    rw [hsame rfl, hlist, labels, ← List.eraseIdx_map, ← label_key moved]
    exact eraseIdx_eq_without hkeys hget
  · obtain ⟨hlabels, hnot⟩ := hother heq
    rw [hlabels, without_of_notMem]
    rw [labels_keys]
    exact hnot

theorem siblings_inside {after : List EditorNode} (hnodup : (refs nodes).Nodup)
    (hafter : (refs after).Nodup) (hbefore : moved ∈ allNodes nodes)
    (hmoved : moved ∈ allNodes after) {k : String} (hk : .group k ∈ refs [moved]) :
    siblings after (.group k) =
      (siblings nodes (.group k)).map (without Prod.fst moved.ref) := by
  cases moved with
  | item j name => simp at hk
  | group j name children =>
      obtain ⟨name', inner, hinner⟩ := exists_group hk
      have hall : ∀ {tree : List EditorNode}, .group j name children ∈ allNodes tree →
          .group k name' inner ∈ allNodes tree := by
        intro tree htree
        cases mem_allNodes_group.mp hinner with
        | inl heq =>
            rw [heq]
            exact htree
        | inr hlater =>
            cases hlater with
            | inl hbelow => exact allNodes_children htree hbelow
            | inr hnil => simp [allNodes] at hnil
      have hin : StandIn nodes (.group k) inner := ⟨name', hall hbefore⟩
      have hin' : StandIn after (.group k) inner := ⟨name', hall hmoved⟩
      have hself : EditorDragRef.group j ∉ inner.map EditorNode.ref := by
        have hkeys : (EditorDragRef.group j :: refs children).Nodup :=
          hnodup.sublist (refs_below hbefore)
        intro hmem
        obtain ⟨node, hnode, href⟩ := List.mem_map.mp hmem
        refine (List.nodup_cons.mp hkeys).1 ?_
        rw [← href]
        cases mem_allNodes_group.mp hinner with
        | inl heq =>
            injection heq with _ _ hchildren
            subst hchildren
            exact mem_refs (mem_allNodes_of_mem hnode)
        | inr hlater =>
            cases hlater with
            | inl hbelow =>
                exact mem_refs (allNodes_children hbelow (mem_allNodes_of_mem hnode))
            | inr hnil => simp [allNodes] at hnil
      rw [siblings_of_standIn hafter hin', siblings_of_standIn hnodup hin, Option.map_some,
        without_of_notMem]
      rw [labels_keys]
      exact hself

end Move

theorem labels_insertAt (list : List EditorNode) (index : Nat) (node : EditorNode) :
    labels (insertAt list index node) =
      (labels list).insertIdx (min index (labels list).length) node.label := by
  rw [insertAt_ofNat, labels, List.map_insertIdx, labels, List.length_map]

theorem mem_insertAt {list : List EditorNode} (index : Nat) {inserted node : EditorNode} :
    node ∈ allNodes (insertAt list index inserted) ↔
      node ∈ allNodes [inserted] ∨ node ∈ allNodes list := by
  rw [insertAt_ofNat]
  exact mem_insertIdx (Nat.min_le_right _ _)

theorem exists_standIn {nodes : List EditorNode} {container : Container}
    (h : ∀ k, container = .group k → .group k ∈ refs nodes) :
    ∃ list, StandIn nodes container list := by
  cases container with
  | top => exact ⟨nodes, rfl⟩
  | group k =>
      obtain ⟨name, list, hgroup⟩ := exists_group (h k rfl)
      exact ⟨list, name, hgroup⟩

variable {drag : EditorDragRef}

theorem moveEditorNode_moved {state next : MenuEditorState} (hnodup : (refs state.top).Nodup)
    {target : Container} {index : Nat}
    (h : moveEditorNode state drag (target.target index) = some next) :
    Moved state.top next.top drag target index := by
  have hrefs : (refs next.top).Perm (refs state.top) := moveEditorNode_refs hnodup h
  have hafter : (refs next.top).Nodup := hrefs.nodup_iff.mpr hnodup
  obtain ⟨removal, list, hplace, htaken, hguard, hnext⟩ := moveEditorNode_updates hnodup h
  have hkey : removal.removed.ref = drag := htaken.key
  have hmid : (refs (updateContainer removal.container (·.eraseIdx removal.index)
      state.top)).Nodup := (List.nodup_append.mp (htaken.rest.nodup_iff.mp hnodup)).2.1
  obtain ⟨old, hold⟩ := exists_standIn fun k hk => (hguard k hk).1
  obtain ⟨left, hleft, hsame, hother⟩ := siblings_taken hnodup hplace hold
    fun k hk => (hguard k hk).2
  -- the node goes into what is left of the target
  obtain ⟨filled, hfilled, hinserted, -⟩ := StandIn.updated hmid (insertAt ·
      (insertIndex (removal.container = target) removal.index index) removal.removed)
    hleft hleft fun k name _ hmem => (mem_insertAt _).mpr (.inr hmem)
  rw [← hnext] at hfilled
  have hfilled_eq := hinserted rfl
  have hin : removal.removed ∈ filled := by
    rw [hfilled_eq, insertAt_ofNat, List.mem_insertIdx (Nat.min_le_right _ _)]
    exact .inl rfl
  have hmoved : removal.removed ∈ allNodes next.top := hfilled.mem hin
  refine ⟨hrefs, ?_, removal.removed, labels old, hkey, htaken.mem, hmoved,
    siblings_of_standIn hnodup hold, ?_⟩
  · intro container hne
    by_cases hinside : ∃ k, container = .group k ∧ .group k ∈ refs [removal.removed]
    · obtain ⟨k, hk, hbelow⟩ := hinside
      subst hk
      rw [← hkey]
      exact siblings_inside hnodup hafter htaken.mem hmoved hbelow
    have hout : ∀ k, container = .group k → .group k ∉ refs [removal.removed] :=
      fun k hk hbelow => hinside ⟨k, hk, hbelow⟩
    by_cases hgone : ∃ k, container = .group k ∧ .group k ∉ refs state.top
    · obtain ⟨k, hk, habsent⟩ := hgone
      subst hk
      have habsent' : .group k ∉ refs next.top := fun hmem => habsent (hrefs.mem_iff.mp hmem)
      rw [siblings_absent habsent, siblings_absent habsent']
      rfl
    obtain ⟨list', hlist'⟩ : ∃ list', StandIn state.top container list' :=
      exists_standIn fun k hk => by
        by_contra habsent
        exact hgone ⟨k, hk, habsent⟩
    obtain ⟨left', hleft', hsame', hother'⟩ := siblings_taken hnodup hplace hlist' hout
    obtain ⟨kept, hkept, -, hlabels⟩ := StandIn.updated hmid (insertAt ·
        (insertIndex (removal.container = target) removal.index index) removal.removed)
      hleft hleft' fun k name _ hmem => (mem_insertAt _).mpr (.inr hmem)
    rw [← hnext] at hkept
    rw [siblings_of_standIn hafter hkept, siblings_of_standIn hnodup hlist', Option.map_some,
      hlabels hne, labels_left hnodup hplace hlist' hsame' hother', hkey]
  · rw [siblings_of_standIn hafter hfilled, hfilled_eq, labels_insertAt, ← hkey, ← label_key]
    congr 1
    by_cases hfrom : removal.container = target
    · have hlist : old = list := by
        subst hfrom
        exact hold.unique hnodup hplace.container
      have hkeys : ((labels list).map Prod.fst).Nodup := by
        rw [labels_keys]
        exact hplace.container.nodup hnodup
      have hget : (labels list)[removal.index]? = some removal.removed.label := by
        rw [labels, List.getElem?_map, hplace.index, Option.map_some]
      have hleft_labels : labels left = (labels list).eraseIdx removal.index := by
        rw [hsame hfrom.symm, labels, labels, List.eraseIdx_map]
      rw [hleft_labels, hlist, ← reinsert hkeys hget index removal.removed.label]
      simp [insertIndex, hfrom]
    · obtain ⟨hlabels, hnot⟩ := hother fun heq => hfrom heq.symm
      rw [← labels_keys, ← label_key] at hnot
      rw [hlabels, ← insert_new hnot index removal.removed.label]
      simp [insertIndex, hfrom]

/-- A move is refused exactly when the node or the target group is not there, or the target lies
in the dragged group. -/
theorem moveEditorNode_eq_none {state : MenuEditorState} (hnodup : (refs state.top).Nodup)
    (drag : EditorDragRef) (target : Container) (index : Nat) :
    moveEditorNode state drag (target.target index) = none ↔
      drag ∉ refs state.top ∨
        ∃ k, target = .group k ∧ (.group k ∉ refs state.top ∨
          ∃ moved ∈ allNodes state.top, moved.ref = drag ∧ .group k ∈ refs [moved]) := by
  constructor
  · intro hnone
    by_cases hdrag : drag ∈ refs state.top
    · right
      cases target with
      | top =>
          obtain ⟨pair, hremove⟩ := Option.isSome_iff_exists.mp (removeNode_isSome hdrag)
          simp [moveEditorNode, targetGuardFails, Container.target, hremove] at hnone
      | group k =>
          refine ⟨k, rfl, ?_⟩
          by_cases hk : .group k ∈ refs state.top
          · right
            obtain ⟨pair, hremove⟩ := Option.isSome_iff_exists.mp (removeNode_isSome hdrag)
            have hguard : targetGuardFails state drag (.children k index) = true := by
              cases hguard : targetGuardFails state drag (.children k index) with
              | true => rfl
              | false => simp [moveEditorNode, Container.target, hguard, hremove] at hnone
            have hfound : (findGroupNode k state.top).isNone = false := by
              rw [← Option.not_isSome, findGroupNode_isSome.mpr hk]
              rfl
            cases drag with
            | item j => simp [targetGuardFails, hfound] at hguard
            | group j =>
                obtain ⟨⟨name, children⟩, hfind⟩ :=
                  Option.isSome_iff_exists.mp (findGroupNode_isSome.mpr hdrag)
                refine ⟨.group j name children, findGroupNode_mem hfind, rfl, ?_⟩
                simp only [targetGuardFails, hfound, Bool.false_eq_true, if_false, hfind,
                  decide_eq_true_eq, collectGroupSubtreeKeys, List.mem_cons,
                  List.mem_filterMap] at hguard
                simp only [refs_group, refs_nil, List.append_nil, List.mem_cons,
                  EditorDragRef.group.injEq]
                cases hguard with
                | inl heq => exact .inl heq
                | inr hbelow =>
                    obtain ⟨ref, href, hkey⟩ := hbelow
                    cases ref with
                    | item _ => cases hkey
                    | group j' =>
                        cases hkey
                        exact .inr href
          · exact .inl hk
    · exact .inl hdrag
  · intro hblocked
    cases hresult : moveEditorNode state drag (target.target index) with
    | none => rfl
    | some next =>
        exfalso
        obtain ⟨removal, list, -, htaken, hguard, -⟩ := moveEditorNode_updates hnodup hresult
        cases hblocked with
        | inl hdrag => exact hdrag (htaken.key ▸ mem_refs htaken.mem)
        | inr hgroup =>
            obtain ⟨k, hk, hcase⟩ := hgroup
            obtain ⟨hthere, houtside⟩ := hguard k hk
            cases hcase with
            | inl habsent => exact habsent hthere
            | inr hinside =>
                obtain ⟨moved, hmoved, hkey, hbelow⟩ := hinside
                have hsame : moved = removal.removed :=
                  node_unique hnodup hmoved htaken.mem (hkey.trans htaken.key.symm)
                rw [hsame] at hbelow
                exact houtside hbelow

/-! ## Moving by one place -/

theorem locateBelow_place {nodes : List EditorNode} {drag : EditorDragRef} {located : LocatedNode}
    (h : locateBelow drag nodes = some located) :
    ∃ k list node, located.container = .group k ∧
      StandsAt nodes (.group k) located.index node list ∧ node.ref = drag ∧
      located.size = list.length := by
  induction nodes using forest_induction with
  | nil => simp [locateBelow] at h
  | item j name rest ih =>
      simp only [locateBelow, EditorNode.locateBelow, Option.none_or] at h
      obtain ⟨k, list, node, hk, ⟨⟨old, hin⟩, hindex⟩, hrest⟩ := ih h
      exact ⟨k, list, node, hk, ⟨⟨old, mem_allNodes_item.mpr (.inr hin)⟩, hindex⟩, hrest⟩
  | group j name children rest ihChildren ihRest =>
      rw [locateBelow, EditorNode.locateBelow] at h
      cases hidx : children.findIdx? (fun node => node.ref = drag) with
      | some i =>
          simp only [hidx, Option.some_or, Option.some.injEq] at h
          subst h
          obtain ⟨hi, hkey, -⟩ := List.findIdx?_eq_some_iff_getElem.mp hidx
          exact ⟨j, children, children[i], rfl,
            ⟨⟨name, mem_allNodes_group.mpr (.inl rfl)⟩, List.getElem?_eq_getElem hi⟩,
            by simpa using hkey, rfl⟩
      | none =>
          simp only [hidx] at h
          cases Option.or_eq_some_iff.mp h with
          | inl hbelow =>
              obtain ⟨k, list, node, hk, ⟨⟨old, hin⟩, hindex⟩, hmore⟩ := ihChildren hbelow
              exact ⟨k, list, node, hk,
                ⟨⟨old, mem_allNodes_group.mpr (.inr (.inl hin))⟩, hindex⟩, hmore⟩
          | inr hlater =>
              obtain ⟨k, list, node, hk, ⟨⟨old, hin⟩, hindex⟩, hmore⟩ := ihRest hlater.2
              exact ⟨k, list, node, hk,
                ⟨⟨old, mem_allNodes_group.mpr (.inr (.inr hin))⟩, hindex⟩, hmore⟩

theorem locateNode_place {nodes : List EditorNode} {drag : EditorDragRef} {located : LocatedNode}
    (h : locateNode nodes drag = some located) :
    ∃ list node, StandsAt nodes located.container located.index node list ∧ node.ref = drag ∧
      located.size = list.length := by
  unfold locateNode at h
  cases hidx : nodes.findIdx? (fun node => node.ref = drag) with
  | some i =>
      simp only [hidx, Option.some.injEq] at h
      subst h
      obtain ⟨hi, hkey, -⟩ := List.findIdx?_eq_some_iff_getElem.mp hidx
      exact ⟨nodes, nodes[i], ⟨rfl, List.getElem?_eq_getElem hi⟩, by simpa using hkey, rfl⟩
  | none =>
      simp only [hidx] at h
      obtain ⟨k, list, node, hk, hplace, hmore⟩ := locateBelow_place h
      rw [hk]
      exact ⟨list, node, hplace, hmore⟩

/-- The index behind a move by one place. -/
def Direction.shift (direction : Direction) (i : Nat) : Nat :=
  match direction with
  | .up => i - 1
  | .down => i + 1

/-- There is a neighbour to change places with. -/
def Direction.Allowed (direction : Direction) (i size : Nat) : Prop :=
  match direction with
  | .up => 1 ≤ i
  | .down => i + 1 < size

theorem moveEditorNodeByOffset_place {state next : MenuEditorState}
    (hnodup : (refs state.top).Nodup) {drag : EditorDragRef} {direction : Direction}
    (h : moveEditorNodeByOffset state drag direction = some next) :
    ∃ container list i node, StandsAt state.top container i node list ∧ node.ref = drag ∧
      direction.Allowed i list.length ∧
      next.top = updateContainer container
        (fun l => (l.eraseIdx i).insertIdx (direction.shift i) node) state.top ∧
      StandIn next.top container ((list.eraseIdx i).insertIdx (direction.shift i) node) := by
  unfold moveEditorNodeByOffset at h
  cases hlocate : locateNode state.top drag with
  | none => simp [hlocate] at h
  | some located =>
      obtain ⟨list, node, hplace, hkey, hsize⟩ := locateNode_place hlocate
      have hlt : located.index < list.length := (List.getElem?_eq_some_iff.mp hplace.index).1
      simp only [hlocate] at h
      -- the target index counts the node itself
      obtain ⟨index, hallowed, hmove, hindex⟩ : ∃ index : Nat,
          direction.Allowed located.index list.length ∧
          moveEditorNode state drag (located.container.target index) = some next ∧
          min (insertIndex true located.index index) (list.length - 1) =
            direction.shift located.index := by
        cases direction with
        | up =>
            simp only at h
            split at h
            · cases h
            · rename_i hrange
              have hcast : (located.index : Int) - 1 = ((located.index - 1 : Nat) : Int) := by omega
              rw [hcast] at h
              refine ⟨located.index - 1, ?_, h, ?_⟩
              · show 1 ≤ located.index
                omega
              · have hnot : ¬ located.index < located.index - 1 := by omega
                simp [insertIndex, hnot, Direction.shift]
                omega
        | down =>
            simp only at h
            split at h
            · cases h
            · rename_i hrange
              have hcast : (located.index : Int) + 1 + 1 = ((located.index + 2 : Nat) : Int) := by
                omega
              rw [hcast] at h
              refine ⟨located.index + 2, ?_, h, ?_⟩
              · show located.index + 1 < list.length
                omega
              · simp [insertIndex, Direction.shift]
                omega
      obtain ⟨removal, list', hplace', htaken, hguard, hnext⟩ := moveEditorNode_updates hnodup hmove
      obtain ⟨hc, hl, hi, hnode⟩ := place_unique hnodup hplace.container hplace'.container
        hplace.index hplace'.index (hkey.trans htaken.key.symm)
      subst hl
      rw [← hc, ← hi, ← hnode] at hnext
      have hfill : insertAt (list.eraseIdx located.index)
          (insertIndex (decide (located.container = located.container)) located.index index)
          node = (list.eraseIdx located.index).insertIdx (direction.shift located.index) node := by
        rw [insertAt_ofNat, List.length_eraseIdx_of_lt hlt, decide_eq_true rfl, hindex]
      have htop : next.top = updateContainer located.container
          (fun l => (l.eraseIdx located.index).insertIdx (direction.shift located.index) node)
          state.top := by
        rw [hnext, updateContainer_comp]
        exact updateContainer_congr hnodup hplace.container hfill
      refine ⟨located.container, list, located.index, node, hplace, hkey, hallowed, htop, ?_⟩
      have hfits : direction.shift located.index ≤ (list.eraseIdx located.index).length := by
        rw [List.length_eraseIdx_of_lt hlt]
        cases direction with
        | up =>
            show located.index - 1 ≤ list.length - 1
            omega
        | down =>
            have hroom : located.index + 1 < list.length := hallowed
            show located.index + 1 ≤ list.length - 1
            omega
      obtain ⟨filled, hfilled, hsame, -⟩ := StandIn.updated hnodup
        (fun l => (l.eraseIdx located.index).insertIdx (direction.shift located.index) node)
        hplace.container hplace.container fun k name hk hmem => by
          refine (mem_insertIdx hfits).mpr (.inr (mem_eraseIdx hplace.index hmem fun hinside => ?_))
          rw [hnode] at hinside
          exact (hguard k hk).2 (group_mem_refs hinside)
      rw [← htop, hsame rfl] at hfilled
      exact hfilled

theorem moveEditorNodeByOffset_undo {state down up : MenuEditorState}
    (hnodup : (refs state.top).Nodup) (hdown : moveEditorNodeByOffset state drag .down = some down)
    (hup : moveEditorNodeByOffset down drag .up = some up) : up = state := by
  have hnodup' : (refs down.top).Nodup :=
    (moveEditorNodeByOffset_refs hnodup hdown).nodup_iff.mpr hnodup
  obtain ⟨c, list, i, node, hplace, hkey, hroom, htop, hin⟩ :=
    moveEditorNodeByOffset_place hnodup hdown
  obtain ⟨c', list', i', node', hplace', hkey', -, htop', -⟩ :=
    moveEditorNodeByOffset_place hnodup' hup
  have hlt : i < list.length := (List.getElem?_eq_some_iff.mp hplace.index).1
  have hroom' : i + 1 < list.length := hroom
  have hlength : (list.eraseIdx i).length = list.length - 1 := List.length_eraseIdx_of_lt hlt
  have hmoved : ((list.eraseIdx i).insertIdx (i + 1) node)[i + 1]? = some node := by
    rw [List.getElem?_insertIdx_self, if_pos (by omega)]
  obtain ⟨hc, hl, hi, hnode⟩ := place_unique hnodup' hin hplace'.container hmoved hplace'.index
    (hkey.trans hkey'.symm)
  have hself : list[i] = node := by
    have hindex := hplace.index
    rw [List.getElem?_eq_getElem hlt] at hindex
    exact Option.some.inj hindex
  have hback : (((list.eraseIdx i).insertIdx (i + 1) node).eraseIdx (i + 1)).insertIdx i node =
      list := by
    rw [List.eraseIdx_insertIdx_self, ← hself, List.insertIdx_eraseIdx_getElem hlt]
  have hrestored : up.top = state.top := by
    rw [htop', htop, ← hc, ← hi, ← hnode, updateContainer_comp]
    show updateContainer c (fun l => (((l.eraseIdx i).insertIdx (i + 1) node).eraseIdx
      (i + 1)).insertIdx i node) state.top = state.top
    rw [updateContainer_congr hnodup hplace.container (g := fun l => l) hback,
      updateContainer_id]
  cases up
  cases state
  exact congrArg MenuEditorState.mk hrestored

/-- Moving a node: refused only where it must be, to the place asked for and with all other
siblings in their order; and a move down is undone by a move up. -/
theorem moveEditorNode_places (state : MenuEditorState) (hnodup : (refs state.top).Nodup)
    (drag : EditorDragRef) :
    (∀ (target : Container) (index : Nat),
      (moveEditorNode state drag (target.target index) = none ↔
        drag ∉ refs state.top ∨
          ∃ k, target = .group k ∧ (.group k ∉ refs state.top ∨
            ∃ moved ∈ allNodes state.top, moved.ref = drag ∧ .group k ∈ refs [moved])) ∧
      ∀ next, moveEditorNode state drag (target.target index) = some next →
        Moved state.top next.top drag target index) ∧
      ∀ down up, moveEditorNodeByOffset state drag .down = some down →
        moveEditorNodeByOffset down drag .up = some up → up = state :=
  ⟨fun target index => ⟨moveEditorNode_eq_none hnodup drag target index,
    fun _ hnext => moveEditorNode_moved hnodup hnext⟩,
    fun _ _ hdown hup => moveEditorNodeByOffset_undo hnodup hdown hup⟩

/-- A group with an item, and another item behind it. -/
def smallTree : MenuEditorState :=
  ⟨[.group "g" none [.item "a" none], .item "b" none]⟩

theorem moveEditorNode_places_small :
    (refs smallTree.top).Nodup ∧
      moveEditorNode smallTree (.group "g") (.children "g" 0) = none ∧
      Moved smallTree.top [.group "g" none [.item "b" none, .item "a" none]] (.item "b")
        (.group "g") 0 ∧
      ∀ down up, moveEditorNodeByOffset smallTree (.group "g") .down = some down →
        moveEditorNodeByOffset down (.group "g") .up = some up → up = smallTree := by
  have hnodup : (refs smallTree.top).Nodup := by decide
  refine ⟨hnodup, ?_, ?_, (moveEditorNode_places smallTree hnodup (.group "g")).2⟩
  · refine ((moveEditorNode_places smallTree hnodup (.group "g")).1 (.group "g") 0).1.mpr ?_
    exact .inr ⟨"g", rfl, .inr ⟨.group "g" none [.item "a" none], by simp [smallTree, allNodes,
      EditorNode.allNodes], rfl, by decide⟩⟩
  · exact ((moveEditorNode_places smallTree hnodup (.item "b")).1 (.group "g") 0).2
      ⟨[.group "g" none [.item "b" none, .item "a" none]]⟩ rfl

end Wbme.Menu

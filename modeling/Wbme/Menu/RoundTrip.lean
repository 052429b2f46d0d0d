import Wbme.Menu.EditorMoves

/-! # Saving and loading the editor tree

What a container shows is a list of entries, one for each of its nodes: the place, the key
and the name. The rows of a saved tree have the entries of the tree, the merge of these
rows with the defaults has the entries of the rows, and sorting the entries of a container
by their places gives its nodes back.
-/

namespace Wbme.Menu

open Lib.Forest

/-! ## Sorting by place -/

theorem isBelow_iff {α : Type} [Preorder α] [DecidableLT α] {a b : WithTop α} :
    isBelow a b = true ↔ a < b := by
  cases a with
  | top => exact iff_of_false Bool.false_ne_true not_top_lt
  | coe a =>
      cases b with
      | top => exact iff_of_true rfl (WithTop.coe_lt_top a)
      | coe b => exact (decide_eq_true_iff).trans WithTop.coe_lt_coe.symm

theorem comparePlacement_ne_gt {a b : Placement} :
    comparePlacement a b ≠ .gt ↔ toLex (a.order, a.defaultIndex) ≤ toLex (b.order, b.defaultIndex) := by
  rw [Prod.Lex.toLex_le_toLex]
  unfold comparePlacement
  simp only [isBelow_iff]
  by_cases horder : a.order = b.order
  · simp only [horder, ne_eq, not_true_eq_false, if_false, lt_irrefl, true_and, false_or]
    by_cases hlt : a.defaultIndex < b.defaultIndex
    · simp [hlt, hlt.le]
    · by_cases hgt : b.defaultIndex < a.defaultIndex
      · simp [hlt, hgt]
      · simp [hlt, hgt, not_lt.mp hgt]
  · by_cases hlt : a.order < b.order <;> simp [horder, hlt]

theorem sortPlaced_perm {α : Type} (placement : α → Placement) (nodes : List α) :
    (sortPlaced placement nodes).Perm nodes := List.perm_insertionSort _ _

theorem sortPlaced_pairwise {α : Type} (placement : α → Placement) (nodes : List α) :
    (sortPlaced placement nodes).Pairwise
      fun a b => (placement a).order ≤ (placement b).order := by
  let le : α → α → Prop := fun a b => comparePlacement (placement a) (placement b) ≠ .gt
  have htotal : Std.Total le := by
    constructor
    intro a b
    simp only [le, comparePlacement_ne_gt]
    exact le_total _ _
  have htrans : IsTrans α le := by
    constructor
    intro a b c hab hbc
    simp only [le, comparePlacement_ne_gt] at hab hbc ⊢
    exact hab.trans hbc
  apply (List.pairwise_insertionSort le nodes).imp
  intro a b hab
  rcases Prod.Lex.toLex_le_toLex.mp (comparePlacement_ne_gt.mp hab) with h | h
  · exact h.le
  · exact h.1.le

/-! ## Entries -/

/-- A node as its container shows it. -/
structure Shown where
  order : WithTop Int
  ref : EditorDragRef
  nameOverride : Option String

def EditorNode.nameOverride : EditorNode → Option String
  | .item _ nameOverride => nameOverride
  | .group _ nameOverride _ => nameOverride

def EditorNode.shown (node : EditorNode) (index : Nat) : Shown :=
  ⟨(index : Int), node.ref, node.nameOverride⟩

def shownFrom (index : Nat) (nodes : List EditorNode) : List Shown :=
  (nodes.zipIdx index).map fun (node, i) => node.shown i

/-- The rows of a configuration under their parents. -/
def configEntries (config : SystemMenuConfig) : List (Option String × Shown) :=
  (config.items.map fun row =>
      (row.parentKey, ⟨row.sortOrder, .item row.itemKey, row.nameOverride⟩)) ++
    config.groups.map fun row =>
      (row.parentKey, ⟨row.sortOrder, .group row.nodeKey, row.nameOverride⟩)

def MenuNode.parentKey : MenuNode → Option String
  | .item row => row.parentKey
  | .group row => row.parentKey

def MenuNode.shown : MenuNode → Shown
  | .item row => ⟨row.order, .item row.itemKey, row.nameOverride⟩
  | .group row => ⟨row.order, .group row.nodeKey, row.nameOverride⟩

def ResolvedMenu.nodes (menu : ResolvedMenu) : List MenuNode :=
  menu.items.map .item ++ menu.groups.map .group

/-- The rows of a merge under their parents. -/
def menuEntries (menu : ResolvedMenu) : List (Option String × Shown) :=
  menu.nodes.map fun node => (node.parentKey, node.shown)

/-- What a container shows, in any order. -/
def shownIn (parentKey : Option String) (entries : List (Option String × Shown)) : List Shown :=
  (entries.filter fun entry => entry.1 = parentKey).map (·.2)

variable (menu : ResolvedMenu) (p : Option String)

theorem shownIn_append (entries more : List (Option String × Shown)) :
    shownIn p (entries ++ more) = shownIn p entries ++ shownIn p more := by
  simp [shownIn]

theorem shownIn_perm {entries more : List (Option String × Shown)} (h : entries.Perm more) :
    (shownIn p entries).Perm (shownIn p more) :=
  (h.filter _).map _

theorem configEntries_append (first second : SystemMenuConfig) :
    (configEntries (first.append second)).Perm (configEntries first ++ configEntries second) := by
  simp only [configEntries, SystemMenuConfig.append, List.map_append, List.append_assoc]
  apply List.Perm.append_left
  rw [← List.append_assoc, ← List.append_assoc]
  exact List.perm_append_comm.append_right _

section Serialize

theorem serializeNodes_item (i : Nat) (k : String) (name : Option String) (rest : List EditorNode) :
    (configEntries (serializeNodes p i (.item k name :: rest))).Perm
      ((p, (EditorNode.item k name).shown i) ::
        configEntries (serializeNodes p (i + 1) rest)) := by
  have hperm := configEntries_append ⟨[], [⟨k, p, name, i⟩]⟩ (serializeNodes p (i + 1) rest)
  simpa [serializeNodes, serializeNode, configEntries, EditorNode.shown, EditorNode.ref,
    EditorNode.nameOverride] using hperm

theorem serializeNodes_group (i : Nat) (k : String) (name : Option String)
    (children rest : List EditorNode) :
    (configEntries (serializeNodes p i (.group k name children :: rest))).Perm
      ((p, (EditorNode.group k name children).shown i) ::
        (configEntries (serializeNodes (some k) 0 children) ++
          configEntries (serializeNodes p (i + 1) rest))) := by
  have hhead : serializeNodes p i (.group k name children :: rest) =
      (SystemMenuConfig.append ⟨[⟨k, p, name, i⟩], []⟩ (serializeNodes (some k) 0 children)).append
        (serializeNodes p (i + 1) rest) := by
    simp [serializeNodes, serializeNode]
  rw [hhead]
  refine (configEntries_append _ _).trans ?_
  have hself := configEntries_append ⟨[⟨k, p, name, i⟩], []⟩ (serializeNodes (some k) 0 children)
  exact hself.append_right _

theorem serializeNodes_refs (p : Option String) (i : Nat) (nodes : List EditorNode) :
    ((configEntries (serializeNodes p i nodes)).map (·.2.ref)).Perm (refs nodes) := by
  induction nodes using forest_induction generalizing p i with
  | nil => exact List.Perm.refl _
  | item k name rest ih =>
      rw [refs_item]
      exact ((serializeNodes_item p i k name rest).map _).trans ((ih p (i + 1)).cons _)
  | group k name children rest ihChildren ihRest =>
      rw [refs_group]
      refine ((serializeNodes_group p i k name children rest).map _).trans ?_
      rw [List.map_cons, List.map_append]
      exact ((ihChildren (some k) 0).append (ihRest p (i + 1))).cons _

theorem serializeNodes_parent {p : Option String} {i : Nat} {nodes : List EditorNode}
    {entry : Option String × Shown} (h : entry ∈ configEntries (serializeNodes p i nodes)) :
    entry.1 = p ∨ ∃ k, entry.1 = some k ∧ .group k ∈ refs nodes := by
  induction nodes using forest_induction generalizing p i with
  | nil => simp [serializeNodes, configEntries, emptyMenuConfig] at h
  | item k name rest ih =>
      rw [(serializeNodes_item p i k name rest).mem_iff, List.mem_cons] at h
      rcases h with h | h
      · exact Or.inl (h ▸ rfl)
      · rcases ih h with h | ⟨j, hj, hmem⟩
        · exact Or.inl h
        · exact Or.inr ⟨j, hj, by simp [hmem]⟩
  | group k name children rest ihChildren ihRest =>
      rw [(serializeNodes_group p i k name children rest).mem_iff, List.mem_cons,
        List.mem_append] at h
      rcases h with h | h | h
      · exact Or.inl (h ▸ rfl)
      · rcases ihChildren h with h | ⟨j, hj, hmem⟩
        · exact Or.inr ⟨k, h, by simp⟩
        · exact Or.inr ⟨j, hj, by simp [hmem]⟩
      · rcases ihRest h with h | ⟨j, hj, hmem⟩
        · exact Or.inl h
        · exact Or.inr ⟨j, hj, by simp [hmem]⟩

theorem shownIn_absent {p q : Option String} (hne : p ≠ q) (i : Nat) (nodes : List EditorNode)
    (habsent : ∀ k, p = some k → .group k ∉ refs nodes) :
    shownIn p (configEntries (serializeNodes q i nodes)) = [] := by
  unfold shownIn
  rw [List.map_eq_nil_iff, List.filter_eq_nil_iff]
  intro entry hentry hp
  rw [decide_eq_true_iff] at hp
  rcases serializeNodes_parent hentry with h | ⟨k, hk, hmem⟩
  · exact hne (hp.symm.trans h)
  · exact habsent k (hp.symm.trans hk) hmem

theorem shownIn_own {p : Option String} (i : Nat) {nodes : List EditorNode}
    (habsent : ∀ k, p = some k → .group k ∉ refs nodes) :
    (shownIn p (configEntries (serializeNodes p i nodes))).Perm (shownFrom i nodes) := by
  induction nodes using forest_induction generalizing i with
  | nil => exact List.Perm.refl _
  | item k name rest ih =>
      refine (shownIn_perm p (serializeNodes_item p i k name rest)).trans ?_
      have hrest := ih (i + 1) fun j hj hmem => habsent j hj (by simp [hmem])
      simpa [shownIn, shownFrom] using hrest.cons ((EditorNode.item k name).shown i)
  | group k name children rest _ ihRest =>
      refine (shownIn_perm p (serializeNodes_group p i k name children rest)).trans ?_
      have hne : p ≠ some k := fun hp => habsent k hp (by simp)
      have hinner := shownIn_absent hne 0 children
        fun j hj hmem => habsent j hj (by simp [hmem])
      have hrest := ihRest (i + 1) fun j hj hmem => habsent j hj (by simp [hmem])
      rw [← List.singleton_append, shownIn_append, shownIn_append, hinner, List.nil_append]
      simpa [shownIn, shownFrom] using hrest.cons ((EditorNode.group k name children).shown i)

theorem shownIn_children {nodes : List EditorNode} (hnodup : (refs nodes).Nodup) {k : String}
    {name : Option String} {children : List EditorNode}
    (h : .group k name children ∈ allNodes nodes) {q : Option String} (hq : some k ≠ q) (i : Nat) :
    (shownIn (some k) (configEntries (serializeNodes q i nodes))).Perm (shownFrom 0 children) := by
  induction nodes using forest_induction generalizing q i with
  | nil => simp [allNodes] at h
  | item j old rest ih =>
      refine (shownIn_perm _ (serializeNodes_item q i j old rest)).trans ?_
      simp only [refs_item, List.nodup_cons] at hnodup
      have hrest := ih hnodup.2 (by simpa [allNodes, EditorNode.allNodes] using h) hq (i + 1)
      rw [← List.singleton_append, shownIn_append]
      simpa [shownIn, Ne.symm hq] using hrest
  | group j old inner rest ihInner ihRest =>
      refine (shownIn_perm _ (serializeNodes_group q i j old inner rest)).trans ?_
      have hself : shownIn (some k) [(q, (EditorNode.group j old inner).shown i)] = [] := by
        simp [shownIn, Ne.symm hq]
      simp only [refs_group, List.nodup_cons, List.mem_append, not_or, List.nodup_append] at hnodup
      rcases hnodup with ⟨hself', hinner, hrest, hdisjoint⟩
      rw [← List.singleton_append, shownIn_append, shownIn_append, hself, List.nil_append]
      simp only [allNodes, EditorNode.allNodes, List.cons_append, List.mem_cons,
        List.mem_append] at h
      rcases h with h | h | h
      · injection h with hk hname hchildren
        subst hk hchildren
        have hlater := shownIn_absent hq (i + 1) rest fun _ hj =>
          Option.some.inj hj ▸ hself'.2
        rw [hlater, List.append_nil]
        exact shownIn_own 0 fun _ hj => Option.some.inj hj ▸ hself'.1
      · have hin : .group k ∈ refs inner := List.mem_map_of_mem (f := EditorNode.ref) h
        have hne : some k ≠ some j := fun heq => hself'.1 (Option.some.inj heq ▸ hin)
        have hlater := shownIn_absent hq (i + 1) rest fun _ hj hmem =>
          hdisjoint _ hin _ hmem (by rw [Option.some.inj hj])
        rw [hlater, List.append_nil]
        exact ihInner hinner h hne 0
      · have hin : .group k ∈ refs rest := List.mem_map_of_mem (f := EditorNode.ref) h
        have hne : some k ≠ some j := fun heq => hself'.2 (Option.some.inj heq ▸ hin)
        have hearlier := shownIn_absent hne 0 inner fun _ hj hmem =>
          hdisjoint _ hmem _ hin (by rw [Option.some.inj hj])
        rw [hearlier, List.nil_append]
        exact ihRest hrest h hq (i + 1)

end Serialize

section Nodes

variable {defaults : List NavigationItem} {config : SystemMenuConfig}

def MenuNode.ref (node : MenuNode) : EditorDragRef := node.shown.ref

theorem nodes_refs :
    menu.nodes.map MenuNode.ref =
      (menu.items.map (·.itemKey)).map .item ++ (menu.groups.map (·.nodeKey)).map .group := by
  simp [ResolvedMenu.nodes, MenuNode.ref, MenuNode.shown, Function.comp_def]

theorem resolved_refs_nodup (hnodup : (defaults.map (·.key)).Nodup) :
    ((resolveMenuConfig defaults config).nodes.map MenuNode.ref).Nodup := by
  rw [nodes_refs, resolveMenuConfig_itemKeys, List.nodup_append]
  refine ⟨?_, ?_, ?_⟩
  · exact hnodup.map fun _ _ h => EditorDragRef.item.inj h
  · exact (resolveMenuConfig_sound defaults config).nodup.map fun _ _ h => EditorDragRef.group.inj h
  · intro a ha b hb heq
    rcases List.mem_map.mp ha with ⟨k, -, hk⟩
    rcases List.mem_map.mp hb with ⟨j, -, hj⟩
    rw [← hk, ← hj] at heq
    cases heq

theorem mem_resolved_refs {ref : EditorDragRef} :
    ref ∈ (resolveMenuConfig defaults config).nodes.map MenuNode.ref ↔
      (∃ k ∈ defaults.map (·.key), ref = .item k) ∨
        ∃ k ∈ allGroupKeys (configFromDefaults defaults) config, ref = .group k := by
  rw [nodes_refs, resolveMenuConfig_itemKeys, resolveMenuConfig_groupKeys, List.mem_append,
    List.mem_map, List.mem_map]
  simp only [eq_comm]

end Nodes

/-! ## States of the editor -/

/-- The groups the code defines. -/
def defaultGroupKeys (defaults : List NavigationItem) : List String :=
  (configFromDefaults defaults).groups.map (·.nodeKey)

/-- A tree has distinct keys; its items are the default items, and its groups are groups of
the code or of the user. -/
structure MenuEditorState.Sound (defaults : List NavigationItem) (state : MenuEditorState) :
    Prop where
  nodup : (refs state.top).Nodup
  items : ∀ k, .item k ∈ refs state.top ↔ k ∈ defaults.map (·.key)
  groups : ∀ k, .group k ∈ refs state.top →
    k ∈ defaultGroupKeys defaults ∨ isCustomGroupNodeKey k = true

/-- No group of the code is missing. -/
def MenuEditorState.Complete (defaults : List NavigationItem) (state : MenuEditorState) : Prop :=
  ∀ k ∈ defaultGroupKeys defaults, .group k ∈ refs state.top

variable {k : String}

section Saved

variable {defaults : List NavigationItem} {state : MenuEditorState}

theorem serialize_keys (state : MenuEditorState) :
    ((serializeEditorState state).items.map (EditorDragRef.item ·.itemKey) ++
      (serializeEditorState state).groups.map (EditorDragRef.group ·.nodeKey)).Perm
        (refs state.top) := by
  have hkeys := serializeNodes_refs none 0 state.top
  simpa [configEntries, serializeEditorState, Function.comp_def] using hkeys

theorem serialize_groupKeys :
    k ∈ (serializeEditorState state).groups.map (·.nodeKey) ↔ .group k ∈ refs state.top := by
  rw [← (serialize_keys state).mem_iff]
  simp

theorem serialize_itemKeys :
    k ∈ (serializeEditorState state).items.map (·.itemKey) ↔ .item k ∈ refs state.top := by
  rw [← (serialize_keys state).mem_iff]
  simp

theorem MenuEditorState.Sound.saved_nodup (h : state.Sound defaults) :
    ((serializeEditorState state).items.map (·.itemKey)).Nodup ∧
      ((serializeEditorState state).groups.map (·.nodeKey)).Nodup := by
  have hnodup := (serialize_keys state).nodup_iff.mpr h.nodup
  rw [List.nodup_append] at hnodup
  have hitems := hnodup.1
  have hgroups := hnodup.2.1
  rw [← Function.comp_def EditorDragRef.item, ← List.map_map] at hitems
  rw [← Function.comp_def EditorDragRef.group, ← List.map_map] at hgroups
  exact ⟨hitems.of_map _, hgroups.of_map _⟩

theorem mem_saved_groupKeys (h : state.Sound defaults) (hc : state.Complete defaults) :
    k ∈ allGroupKeys (configFromDefaults defaults) (serializeEditorState state) ↔
      .group k ∈ refs state.top := by
  simp only [allGroupKeys, mem_distinct, List.mem_append]
  constructor
  · intro hk
    rcases hk with hk | hk
    · exact hc k hk
    · rcases List.mem_map.mp hk with ⟨row, hrow, hkey⟩
      apply serialize_groupKeys.mp
      rw [← hkey]
      exact List.mem_map_of_mem (List.mem_filter.mp hrow).1
  · intro hk
    rcases h.groups k hk with hdefault | hcustom
    · exact Or.inl hdefault
    · right
      rcases List.mem_map.mp (serialize_groupKeys.mpr hk) with ⟨row, hrow, hkey⟩
      subst hkey
      exact List.mem_map_of_mem (List.mem_filter.mpr ⟨hrow, hcustom⟩)

theorem mem_configEntries_group {config : SystemMenuConfig} {p : Option String}
    {order : WithTop Int} {name : Option String} :
    (p, ⟨order, .group k, name⟩) ∈ configEntries config ↔
      ∃ row ∈ config.groups, row.nodeKey = k ∧ row.parentKey = p ∧ row.sortOrder = order ∧
        row.nameOverride = name := by
  simp only [configEntries, List.mem_append, List.mem_map, Prod.mk.injEq, Shown.mk.injEq,
    reduceCtorEq, false_and, and_false, exists_false, false_or, EditorDragRef.group.injEq]
  constructor
  · intro h
    rcases h with ⟨row, hrow, hp, horder, hk, hname⟩
    exact ⟨row, hrow, hk, hp, horder, hname⟩
  · intro h
    rcases h with ⟨row, hrow, hk, hp, horder, hname⟩
    exact ⟨row, hrow, hp, horder, hk, hname⟩

theorem saved_soundChain (h : state.Sound defaults) (hc : state.Complete defaults)
    {p : Option String} {i : Nat} {nodes : List EditorNode}
    (hentries : ∀ entry ∈ configEntries (serializeNodes p i nodes),
      entry ∈ configEntries (serializeEditorState state))
    (hp : SoundChain defaults (serializeEditorState state) p) {k : String}
    (hk : .group k ∈ refs nodes) :
    SoundChain defaults (serializeEditorState state) (some k) := by
  induction nodes using forest_induction generalizing p i with
  | nil => simp at hk
  | item j name rest ih =>
      apply ih (i := i + 1) _ hp (by simpa using hk)
      intro entry hentry
      apply hentries
      rw [(serializeNodes_item p i j name rest).mem_iff]
      exact List.mem_cons_of_mem _ hentry
  | group j name children rest ihChildren ihRest =>
      have hall := fun entry hentry =>
        hentries entry ((serializeNodes_group p i j name children rest).mem_iff.mpr hentry)
      have hself : SoundChain defaults (serializeEditorState state) (some j) := by
        rcases mem_configEntries_group.mp (hall _ List.mem_cons_self) with
          ⟨row, hrow, hkey, hparent, -, -⟩
        subst hkey
        apply SoundChain.group
        · rw [mem_saved_groupKeys h hc, ← serialize_groupKeys]
          exact List.mem_map_of_mem hrow
        · unfold configuredParent
          rw [lastRow_eq_some h.saved_nodup.2 hrow]
          simp only [hparent]
          exact hp
      rw [refs_group, List.mem_cons, List.mem_append] at hk
      rcases hk with hk | hk | hk
      · injection hk with hk
        exact hk ▸ hself
      · apply ihChildren (i := 0) _ hself hk
        intro entry hentry
        exact hall entry (List.mem_cons_of_mem _ (List.mem_append_left _ hentry))
      · apply ihRest (i := i + 1) _ hp hk
        intro entry hentry
        exact hall entry (List.mem_cons_of_mem _ (List.mem_append_right _ hentry))

theorem resolved_group_entry (h : state.Sound defaults) (hc : state.Complete defaults)
    {group : ResolvedMenuGroupRow}
    (hgroup : group ∈ (resolveMenuConfig defaults (serializeEditorState state)).groups) :
    (group.parentKey, (MenuNode.group group).shown) ∈
      configEntries (serializeEditorState state) := by
  have hm := resolveMenuConfig_sound defaults (serializeEditorState state)
  have hparent := parentOf_of_mem hm hgroup
  rcases List.mem_map.mp hgroup with ⟨k, hk, heq⟩
  have hin := (mem_saved_groupKeys h hc).mp hk
  rcases List.mem_map.mp (serialize_groupKeys.mpr hin) with ⟨row, hrow, hkey⟩
  have hlast := lastRow_eq_some h.saved_nodup.2 hrow
  have hnode : group.nodeKey = k := by rw [← heq]; rfl
  have hchain := saved_soundChain h hc (fun _ hentry => hentry) SoundChain.top hin
  rw [hnode, parentOf_of_soundChain hchain] at hparent
  unfold configuredParent at hparent
  rw [← hkey, hlast] at hparent
  apply mem_configEntries_group.mpr
  refine ⟨row, hrow, hkey.trans hnode.symm, hparent, ?_, ?_⟩
  · rw [← heq, ← hkey]
    simp [resolveGroup, hlast]
  · rw [← heq, ← hkey]
    simp [resolveGroup, hlast]

theorem resolved_item_entry (h : state.Sound defaults) (hc : state.Complete defaults)
    {item : ResolvedMenuItemRow}
    (hitem : item ∈ (resolveMenuConfig defaults (serializeEditorState state)).items) :
    (item.parentKey, (MenuNode.item item).shown) ∈
      configEntries (serializeEditorState state) := by
  rcases List.mem_map.mp hitem with ⟨⟨source, index⟩, hsource, heq⟩
  have hkey : source.key ∈ defaults.map (·.key) :=
    List.mem_map_of_mem (List.fst_mem_of_mem_zipIdx hsource)
  rcases List.mem_map.mp (serialize_itemKeys.mpr ((h.items _).mpr hkey)) with ⟨row, hrow, hrowKey⟩
  have hlast := lastRow_eq_some h.saved_nodup.1 hrow
  rw [hrowKey] at hlast
  have hentry : (row.parentKey, (⟨row.sortOrder, .item row.itemKey, row.nameOverride⟩ : Shown)) ∈
      configEntries (serializeEditorState state) :=
    List.mem_append_left _ (List.mem_map_of_mem hrow)
  have hhome : row.parentKey.all (fun p => decide (p ∈
      allGroupKeys (configFromDefaults defaults) (serializeEditorState state))) = true := by
    rw [Option.all_eq_true]
    intro p hp
    rw [decide_eq_true_iff, mem_saved_groupKeys h hc]
    rcases serializeNodes_parent hentry with hnone | ⟨k, hk, hmem⟩
    · rw [hp] at hnone
      cases hnone
    · rw [hp, Option.some.injEq] at hk
      exact hk ▸ hmem
  have hresolved : resolveItem (configFromDefaults defaults) (serializeEditorState state)
      source index = ⟨source.key, row.nameOverride, row.parentKey, row.sortOrder, index⟩ := by
    unfold resolveItem
    simp only [hlast, hhome, if_true, Option.bind_some]
  rw [← heq]
  simp only [hresolved, MenuNode.shown]
  rwa [hrowKey] at hentry

theorem menuEntries_saved (h : state.Sound defaults) (hc : state.Complete defaults)
    (hnodup : (defaults.map (·.key)).Nodup) :
    (menuEntries (resolveMenuConfig defaults (serializeEditorState state))).Perm
      (configEntries (serializeEditorState state)) := by
  have hrefs : ((menuEntries (resolveMenuConfig defaults (serializeEditorState state))).map
      (·.2.ref)).Perm ((configEntries (serializeEditorState state)).map (·.2.ref)) := by
    refine List.Perm.trans ?_ (serializeNodes_refs none 0 state.top).symm
    have hsame : (menuEntries (resolveMenuConfig defaults (serializeEditorState state))).map
        (·.2.ref) = (resolveMenuConfig defaults (serializeEditorState state)).nodes.map
          MenuNode.ref := by
      simp [menuEntries, MenuNode.ref, Function.comp_def]
    rw [hsame]
    apply (List.perm_ext_iff_of_nodup (resolved_refs_nodup hnodup) h.nodup).mpr
    intro ref
    rw [mem_resolved_refs]
    cases ref with
    | item k => simpa using (h.items k).symm
    | group k => simpa using mem_saved_groupKeys h hc
  have hdistinct : (menuEntries (resolveMenuConfig defaults (serializeEditorState state))).Nodup :=
    (hrefs.nodup_iff.mpr
      ((serializeNodes_refs none 0 state.top).nodup_iff.mpr h.nodup)).of_map _
  have hsub : menuEntries (resolveMenuConfig defaults (serializeEditorState state)) ⊆
      configEntries (serializeEditorState state) := by
    intro entry hentry
    rcases List.mem_map.mp hentry with ⟨node, hnode, heq⟩
    subst heq
    rcases List.mem_append.mp hnode with hnode | hnode
    · rcases List.mem_map.mp hnode with ⟨item, hitem, heq⟩
      subst heq
      exact resolved_item_entry h hc hitem
    · rcases List.mem_map.mp hnode with ⟨group, hgroup, heq⟩
      subst heq
      exact resolved_group_entry h hc hgroup
  have hlength := hrefs.length_eq
  rw [List.length_map, List.length_map] at hlength
  exact (List.subperm_of_subset hdistinct hsub).perm_of_length_le hlength.ge

end Saved

section Rebuild

theorem shownFrom_orders (i : Nat) (nodes : List EditorNode) :
    (shownFrom i nodes).Pairwise fun a b => a.order < b.order := by
  have horders : (shownFrom i nodes).map (·.order) =
      (List.range' i nodes.length).map fun n : Nat => ((n : Int) : WithTop Int) := by
    rw [← List.zipIdx_map_snd i nodes, List.map_map, shownFrom, List.map_map]
    rfl
  have hpairs : ((shownFrom i nodes).map (·.order)).Pairwise (· < ·) := by
    rw [horders, List.pairwise_map]
    apply List.Pairwise.imp _ (List.pairwise_lt_range' (n := nodes.length) (s := i))
    intro a b hab
    exact WithTop.coe_lt_coe.mpr (by omega)
  exact List.pairwise_map.mp hpairs

theorem editorNodes_shown (p : Option String) :
    ((editorNodes menu p).map MenuNode.shown).Perm (shownIn p (menuEntries menu)) := by
  unfold editorNodes
  refine ((sortPlaced_perm _ _).map _).trans (List.Perm.of_eq ?_)
  simp [shownIn, menuEntries, ResolvedMenu.nodes, List.filter_map, Function.comp_def,
    MenuNode.parentKey]

theorem editorNodes_sorted (p : Option String) :
    ((editorNodes menu p).map MenuNode.shown).Pairwise fun a b => a.order ≤ b.order := by
  rw [List.pairwise_map]
  apply (sortPlaced_pairwise MenuNode.placement _).imp
  intro a b hab
  cases a <;> cases b <;> exact hab

variable {nodes : List EditorNode}

theorem editorNodes_eq {menu : ResolvedMenu} {p : Option String}
    (h : (shownIn p (menuEntries menu)).Perm (shownFrom 0 nodes)) :
    (editorNodes menu p).map MenuNode.shown = shownFrom 0 nodes := by
  have hperm := (editorNodes_shown menu p).trans h
  have horders := shownFrom_orders 0 nodes
  have hdistinct : ((shownFrom 0 nodes).map (·.order)).Nodup := by
    rw [List.nodup_iff_pairwise_ne, List.pairwise_map]
    exact horders.imp fun hlt => hlt.ne
  apply List.Perm.eq_of_pairwise _ (editorNodes_sorted menu p) (horders.imp fun hlt => hlt.le) hperm
  intro a b ha hb hab hba
  exact List.inj_on_of_nodup_map hdistinct (hperm.mem_iff.mp ha) hb (le_antisymm hab hba)

def rebuild (children : String → List EditorNode) (entry : Shown) : EditorNode :=
  match entry.ref with
  | .item k => .item k entry.nameOverride
  | .group k => .group k entry.nameOverride (children k)

theorem buildChildren_succ (fuel : Nat) (p : Option String) :
    buildChildren menu (fuel + 1) p =
      ((editorNodes menu p).map MenuNode.shown).map
        (rebuild fun k => buildChildren menu fuel (some k)) := by
  rw [buildChildren, List.map_map]
  apply List.map_congr_left
  intro node _
  cases node <;> rfl

theorem rebuild_shownFrom {children : String → List EditorNode} {nodes : List EditorNode} (i : Nat)
    (h : ∀ k name below, .group k name below ∈ nodes → children k = below) :
    (shownFrom i nodes).map (rebuild children) = nodes := by
  conv_rhs => rw [← List.zipIdx_map_fst i nodes]
  rw [shownFrom, List.map_map]
  apply List.map_congr_left
  intro pair hpair
  have hmem := List.fst_mem_of_mem_zipIdx hpair
  rcases pair with ⟨node, j⟩
  cases node with
  | item k name => rfl
  | group k name below =>
      simp only [Function.comp_apply, EditorNode.shown, EditorNode.ref, EditorNode.nameOverride,
        rebuild, h k name below hmem]

def MenuEditorState.Holds (state : MenuEditorState) (p : Option String)
    (nodes : List EditorNode) : Prop :=
  match p with
  | none => nodes = state.top
  | some k => ∃ name, .group k name nodes ∈ allNodes state.top

theorem MenuEditorState.Holds.below {state : MenuEditorState} {p : Option String}
    {nodes children : List EditorNode} {k : String} {name : Option String}
    (h : state.Holds p nodes) (hmem : .group k name children ∈ nodes) :
    state.Holds (some k) children := by
  cases p with
  | none =>
      have htop : nodes = state.top := h
      subst htop
      exact ⟨name, mem_allNodes_of_mem hmem⟩
  | some j =>
      rcases h with ⟨old, hgroup⟩
      exact ⟨name, allNodes_children hgroup (mem_allNodes_of_mem hmem)⟩

def groupKeys (nodes : List EditorNode) : List String :=
  (refs nodes).filterMap fun ref =>
    match ref with
    | .group k => some k
    | .item _ => none

theorem mem_groupKeys : k ∈ groupKeys nodes ↔ .group k ∈ refs nodes := by
  rw [groupKeys, List.mem_filterMap]
  constructor
  · intro h
    rcases h with ⟨ref, href, heq⟩
    cases ref with
    | item j => cases heq
    | group j => exact Option.some.inj heq ▸ href
  · intro h
    exact ⟨_, h, rfl⟩

theorem groupKeys_below {nodes children : List EditorNode} {name : Option String}
    (h : .group k name children ∈ nodes) :
    (groupKeys children).length < (groupKeys nodes).length := by
  rcases List.append_of_mem h with ⟨before, after, heq⟩
  subst heq
  simp only [groupKeys, refs_append, refs_group, List.filterMap_append, List.filterMap_cons,
    List.length_append, List.length_cons]
  omega

theorem groupKeys_nodup (h : (refs nodes).Nodup) : (groupKeys nodes).Nodup := by
  apply h.filterMap
  intro a b k ha hb
  cases a <;> cases b <;> simp_all

end Rebuild

section Saved

variable {defaults : List NavigationItem} {state : MenuEditorState}

theorem shownIn_saved (h : state.Sound defaults) {p : Option String} {nodes : List EditorNode}
    (hp : state.Holds p nodes) :
    (shownIn p (configEntries (serializeEditorState state))).Perm (shownFrom 0 nodes) := by
  cases p with
  | none =>
      have htop : nodes = state.top := hp
      subst htop
      exact shownIn_own 0 (by simp)
  | some k =>
      rcases hp with ⟨name, hgroup⟩
      exact shownIn_children h.nodup hgroup (by simp) 0

theorem buildChildren_saved (h : state.Sound defaults) (hc : state.Complete defaults)
    (hnodup : (defaults.map (·.key)).Nodup) (fuel : Nat) {p : Option String}
    {nodes : List EditorNode} (hp : state.Holds p nodes)
    (hfuel : (groupKeys nodes).length < fuel) :
    buildChildren (resolveMenuConfig defaults (serializeEditorState state)) fuel p = nodes := by
  induction fuel generalizing p nodes with
  | zero => exact absurd hfuel (Nat.not_lt_zero _)
  | succ fuel ih =>
      have hentries := (shownIn_perm p (menuEntries_saved h hc hnodup)).trans (shownIn_saved h hp)
      rw [buildChildren_succ, editorNodes_eq hentries]
      apply rebuild_shownFrom
      intro k name below hmem
      have hless := groupKeys_below hmem
      exact ih (hp.below hmem) (by omega)

theorem load_saved (h : state.Sound defaults) (hc : state.Complete defaults)
    (hnodup : (defaults.map (·.key)).Nodup) :
    buildEditorState defaults (serializeEditorState state) = state := by
  have hlength : (groupKeys state.top).length ≤
      (resolveMenuConfig defaults (serializeEditorState state)).groups.length := by
    have hkeys : (groupKeys state.top).Subperm
        (allGroupKeys (configFromDefaults defaults) (serializeEditorState state)) := by
      apply List.subperm_of_subset (groupKeys_nodup h.nodup)
      intro k hk
      exact (mem_saved_groupKeys h hc).mpr (mem_groupKeys.mp hk)
    have hle := hkeys.length_le
    rwa [← resolveMenuConfig_groupKeys, List.length_map] at hle
  have htop : state.Holds none state.top := rfl
  have hbuilt := buildChildren_saved h hc hnodup _ htop (Nat.lt_succ_of_le hlength)
  exact congrArg MenuEditorState.mk hbuilt

end Saved

end Wbme.Menu

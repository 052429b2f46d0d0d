import Wbme.Menu.RoundTrip

/-! # Editing sessions

A tree that was built from a configuration misses no group of the code. The editor lets
such a group be deleted once it is empty, and a load brings it back, so a session can be
saved and loaded without a change exactly when it deletes none of them.
-/

namespace Wbme.Menu

open Lib.Forest

section Built

variable {defaults : List NavigationItem} {config : SystemMenuConfig}

theorem refs_map {α : Type} (f : α → EditorNode) (xs : List α) :
    refs (xs.map f) = xs.flatMap fun x => refs [f x] := by
  induction xs with
  | nil => rfl
  | cons x xs ih => rw [List.map_cons, refs_cons, ih, List.flatMap_cons]

theorem children_of_place {menu : ResolvedMenu} (hm : menu.Sound) (p : Option String) :
    (menu.groups.map (·.nodeKey)).filter (fun g => menu.parentOf g = p) =
      (menu.groups.filter fun row => row.parentKey = p).map (·.nodeKey) := by
  rw [List.filter_map]
  congr 1
  apply List.filter_congr
  intro row hrow
  simp [parentOf_of_mem hm hrow]

theorem buildChildren_refs {menu : ResolvedMenu} (hm : menu.Sound) (fuel : Nat)
    (p : Option String) :
    (refs (buildChildren menu fuel p)).Perm
      ((gather menu.parentOf (menu.groups.map (·.nodeKey)) MenuNode.parentKey menu.nodes fuel
        p).map MenuNode.ref) := by
  induction fuel generalizing p with
  | zero => exact List.Perm.refl _
  | succ fuel ih =>
      have hplaced : menu.nodes.filter (fun node => node.parentKey = p) =
          (menu.items.filter fun row => row.parentKey = p).map .item ++
            (menu.groups.filter fun row => row.parentKey = p).map .group := by
        rw [ResolvedMenu.nodes, List.filter_append, List.filter_map, List.filter_map]
        rfl
      unfold buildChildren gather
      rw [refs_map, List.map_append, hplaced, children_of_place hm, List.map_append]
      unfold editorNodes
      refine ((sortPlaced_perm _ _).flatMap_right _).trans ?_
      rw [List.flatMap_append, List.flatMap_map, List.flatMap_map, List.append_assoc]
      apply List.Perm.append
      · apply List.Perm.of_eq
        rw [List.map_map, List.map_eq_flatMap]
        apply List.flatMap_congr
        intro row _
        simp [MenuNode.ref, MenuNode.shown]
      · have hgroup : ∀ row : ResolvedMenuGroupRow,
            refs [.group row.nodeKey row.nameOverride
              (buildChildren menu fuel (some row.nodeKey))] =
              [MenuNode.ref (.group row)] ++ refs (buildChildren menu fuel (some row.nodeKey)) := by
          intro row
          simp [MenuNode.ref, MenuNode.shown]
        simp only [hgroup]
        refine (List.flatMap_append_perm _ _ _).symm.trans ?_
        apply List.Perm.append
        · apply List.Perm.of_eq
          rw [List.map_map, List.map_eq_flatMap]
          rfl
        · rw [List.map_flatMap, List.flatMap_map]
          apply List.Perm.flatMap_left
          intro row _
          exact ih _

theorem buildEditorState_refs (defaults : List NavigationItem) (config : SystemMenuConfig) :
    (refs (buildEditorState defaults config).top).Perm
      ((resolveMenuConfig defaults config).nodes.map MenuNode.ref) := by
  have hm := resolveMenuConfig_sound defaults config
  have hhome : ∀ node ∈ (resolveMenuConfig defaults config).nodes, ∀ g,
      node.parentKey = some g → g ∈ (resolveMenuConfig defaults config).groups.map (·.nodeKey) := by
    intro node hnode g hg
    rcases List.mem_append.mp hnode with hnode | hnode
    · rcases List.mem_map.mp hnode with ⟨row, hrow, heq⟩
      subst heq
      exact hm.homes row hrow g hg
    · rcases List.mem_map.mp hnode with ⟨row, hrow, heq⟩
      subst heq
      exact hm.parents row.nodeKey g ((parentOf_of_mem hm hrow).trans hg)
  have hcover : ∀ node ∈ (resolveMenuConfig defaults config).nodes, ∀ g,
      Above (resolveMenuConfig defaults config).parentOf (some g) node.parentKey →
        g ∈ (resolveMenuConfig defaults config).groups.map (·.nodeKey) := by
    intro node hnode g habove
    rcases Relation.ReflTransGen.cases_tail habove with heq | ⟨c, -, k, -, hparent⟩
    · exact hhome node hnode g heq.symm
    · exact hm.parents k g hparent
  refine (buildChildren_refs hm _ none).trans (List.Perm.map _ ?_)
  apply gather_perm hm.nodup (fun g _ => hm.rooted g) hcover
  rw [List.length_map]
  exact Nat.lt_succ_self _

theorem build_complete (defaults : List NavigationItem) (config : SystemMenuConfig) :
    (buildEditorState defaults config).Complete defaults := by
  intro k hk
  rw [(buildEditorState_refs defaults config).mem_iff, mem_resolved_refs]
  exact Or.inr ⟨k, identity_mem_allGroupKeys hk, rfl⟩

theorem build_sound (hnodup : (defaults.map (·.key)).Nodup) (config : SystemMenuConfig) :
    (buildEditorState defaults config).Sound defaults := by
  have hrefs := buildEditorState_refs defaults config
  refine ⟨hrefs.nodup_iff.mpr (resolved_refs_nodup hnodup), ?_, ?_⟩
  · intro k
    rw [hrefs.mem_iff, mem_resolved_refs]
    simp
  · intro k hk
    rw [hrefs.mem_iff, mem_resolved_refs] at hk
    have hgroup : k ∈ allGroupKeys (configFromDefaults defaults) config := by simpa using hk
    simp only [allGroupKeys, mem_distinct, List.mem_append] at hgroup
    rcases hgroup with hdefault | hcustom
    · exact Or.inl hdefault
    · right
      rcases List.mem_map.mp hcustom with ⟨row, hrow, hkey⟩
      exact hkey ▸ (List.mem_filter.mp hrow).2

end Built

/-! ## Steps -/

structure DefaultMenu where
  items : List NavigationItem
  nodup : (items.map (·.key)).Nodup

/-- A new group comes under a key that neither the tree nor the code uses. -/
def EditorOp.Fresh (defaults : List NavigationItem) (state : MenuEditorState) : EditorOp → Prop
  | .create random _ _ =>
      .group (customGroupPrefix ++ random) ∉ refs state.top ∧
        customGroupPrefix ++ random ∉ defaultGroupKeys defaults
  | _ => True

/-- The operation deletes a group of the code, which stands in the tree without children. -/
def EditorOp.DeletesDefault (defaults : List NavigationItem) (state : MenuEditorState) :
    EditorOp → Prop
  | .delete k =>
      k ∈ defaultGroupKeys defaults ∧ ∃ name, findGroupNode k state.top = some (name, [])
  | _ => False

section Steps

variable {defaults : List NavigationItem} {state : MenuEditorState}

theorem isCustom_create (random : String) :
    isCustomGroupNodeKey (customGroupPrefix ++ random) = true := by
  simp [isCustomGroupNodeKey]

variable {next : MenuEditorState}

theorem MenuEditorState.Sound.of_perm (h : state.Sound defaults)
    (hperm : (refs next.top).Perm (refs state.top)) : next.Sound defaults :=
  ⟨hperm.nodup_iff.mpr h.nodup, fun k => hperm.mem_iff.trans (h.items k),
    fun k hk => h.groups k (hperm.mem_iff.mp hk)⟩

theorem complete_congr (hperm : (refs next.top).Perm (refs state.top)) :
    next.Complete defaults ↔ state.Complete defaults := by
  unfold MenuEditorState.Complete
  simp only [hperm.mem_iff]

theorem editorStep_sound (h : state.Sound defaults) {op : EditorOp} (hop : op.Fresh defaults state) :
    (editorStep state op).Sound defaults ∧
      ((editorStep state op).Complete defaults ↔
        state.Complete defaults ∧ ¬ op.DeletesDefault defaults state) := by
  unfold editorStep
  cases happly : applyOp state op with
  | none =>
      refine ⟨h, ?_⟩
      have hkeeps : ¬ op.DeletesDefault defaults state := by
        cases op with
        | delete k =>
            intro hdelete
            have hsome := deleteGroupNode_isSome.mpr hdelete.2
            simp only [applyOp] at happly
            rw [happly] at hsome
            cases hsome
        | create random parentKey name => exact id
        | move drag target => exact id
        | moveByOffset drag direction => exact id
        | rename target rawName => exact id
      simp [hkeeps]
  | some next =>
      have heffect := applyOp_effect h.nodup happly
      cases op with
      | create random parentKey name =>
          have hperm : (refs next.top).Perm
              (.group (customGroupPrefix ++ random) :: refs state.top) := heffect
          refine ⟨⟨?_, ?_, ?_⟩, ?_⟩
          · exact hperm.nodup_iff.mpr (List.nodup_cons.mpr ⟨hop.1, h.nodup⟩)
          · intro k
            simpa [hperm.mem_iff] using h.items k
          · intro k hk
            simp only [Option.getD_some, hperm.mem_iff, List.mem_cons,
              EditorDragRef.group.injEq] at hk
            rcases hk with hk | hk
            · exact Or.inr (hk ▸ isCustom_create random)
            · exact h.groups k hk
          · simp only [MenuEditorState.Complete, Option.getD_some, hperm.mem_iff, List.mem_cons,
              EditorDragRef.group.injEq, EditorOp.DeletesDefault, not_false_eq_true, and_true]
            apply forall₂_congr
            intro k hk
            have hne : k ≠ customGroupPrefix ++ random := fun heq => hop.2 (heq ▸ hk)
            simp [hne]
      | delete k =>
          have hperm : (refs state.top).Perm (.group k :: refs next.top) := heffect
          have hnodup := List.nodup_cons.mp (hperm.nodup_iff.mp h.nodup)
          have hdeleted : ∃ name, findGroupNode k state.top = some (name, []) := by
            apply deleteGroupNode_isSome.mp
            simp only [applyOp] at happly
            simp [happly]
          refine ⟨⟨hnodup.2, ?_, ?_⟩, ?_⟩
          · intro j
            rw [← h.items j, hperm.mem_iff]
            simp
          · intro j hj
            exact h.groups j (hperm.mem_iff.mpr (List.mem_cons_of_mem _ hj))
          · simp only [MenuEditorState.Complete, Option.getD_some, hperm.mem_iff, List.mem_cons,
              EditorDragRef.group.injEq, EditorOp.DeletesDefault, hdeleted, and_true]
            constructor
            · intro hall
              exact ⟨fun j hj => Or.inr (hall j hj), fun hk => hnodup.1 (hall k hk)⟩
            · intro hall j hj
              rcases hall.1 j hj with heq | hmem
              · exact absurd (heq ▸ hj) hall.2
              · exact hmem
      | move drag target =>
          exact ⟨h.of_perm heffect, by simp [complete_congr heffect, EditorOp.DeletesDefault]⟩
      | moveByOffset drag direction =>
          exact ⟨h.of_perm heffect, by simp [complete_congr heffect, EditorOp.DeletesDefault]⟩
      | rename target rawName =>
          exact ⟨h.of_perm heffect, by simp [complete_congr heffect, EditorOp.DeletesDefault]⟩

end Steps

/-! ## Sessions -/

/-- The tree after a list of operations. -/
def runEditor (state : MenuEditorState) (ops : List EditorOp) : MenuEditorState :=
  ops.foldl editorStep state

/-- Every new group of the session comes under a new key. -/
def FreshKeys (defaults : List NavigationItem) : MenuEditorState → List EditorOp → Prop
  | _, [] => True
  | state, op :: ops => op.Fresh defaults state ∧ FreshKeys defaults (editorStep state op) ops

/-- No operation of the session deletes a group of the code. -/
def KeepsDefaults (defaults : List NavigationItem) : MenuEditorState → List EditorOp → Prop
  | _, [] => True
  | state, op :: ops =>
      ¬ op.DeletesDefault defaults state ∧ KeepsDefaults defaults (editorStep state op) ops

theorem runEditor_sound {defaults : List NavigationItem} {state : MenuEditorState}
    (h : state.Sound defaults) (ops : List EditorOp) (hfresh : FreshKeys defaults state ops) :
    (runEditor state ops).Sound defaults ∧
      ((runEditor state ops).Complete defaults ↔
        state.Complete defaults ∧ KeepsDefaults defaults state ops) := by
  induction ops generalizing state with
  | nil => exact ⟨h, by simp [runEditor, KeepsDefaults]⟩
  | cons op ops ih =>
      have hstep := editorStep_sound h hfresh.1
      have hrest := ih hstep.1 hfresh.2
      refine ⟨hrest.1, hrest.2.trans ?_⟩
      rw [hstep.2, KeepsDefaults, and_assoc]

theorem complete_of_load_saved {defaults : List NavigationItem} {state : MenuEditorState}
    (h : buildEditorState defaults (serializeEditorState state) = state) :
    state.Complete defaults := by
  rw [← h]
  exact build_complete _ _

/-- Saving and loading after a session is the identity exactly when the session deletes no
group of the code. -/
theorem load_saved_iff (menu : DefaultMenu) (config : SystemMenuConfig) (ops : List EditorOp)
    (hfresh : FreshKeys menu.items (buildEditorState menu.items config) ops) :
    buildEditorState menu.items
        (serializeEditorState (runEditor (buildEditorState menu.items config) ops)) =
          runEditor (buildEditorState menu.items config) ops ↔
      KeepsDefaults menu.items (buildEditorState menu.items config) ops := by
  have hrun := runEditor_sound (build_sound menu.nodup config) ops hfresh
  have hcomplete := hrun.2
  simp only [build_complete, true_and] at hcomplete
  rw [← hcomplete]
  constructor
  · exact complete_of_load_saved
  · intro hc
    exact load_saved hrun.1 hc menu.nodup

namespace Sample

/-- One item in a group of its own, and one at the top. -/
def menu : DefaultMenu where
  items :=
    [⟨"assets", "资产台账", "/asset/assets", some "固定资产", none, none, none⟩,
      ⟨"approval", "审批", "/asset/approval", none, none, none, none⟩]
  nodup := by decide

def outOfGroup : EditorOp := .move (.item "assets") (.top 0)

end Sample

/-- An item that has left its group stands where it was put after a load; the group stays. -/
theorem load_saved_moved :
    buildEditorState Sample.menu.items (serializeEditorState
        (runEditor (buildEditorState Sample.menu.items emptyMenuConfig) [Sample.outOfGroup])) =
      runEditor (buildEditorState Sample.menu.items emptyMenuConfig) [Sample.outOfGroup] :=
  (load_saved_iff Sample.menu emptyMenuConfig [Sample.outOfGroup] ⟨trivial, trivial⟩).mpr
    ⟨id, trivial⟩

/-- The empty group is deleted, and a load brings it back. -/
theorem not_load_saved_deleted :
    ¬ buildEditorState Sample.menu.items (serializeEditorState
        (runEditor (buildEditorState Sample.menu.items emptyMenuConfig)
          [Sample.outOfGroup, .delete "固定资产"])) =
      runEditor (buildEditorState Sample.menu.items emptyMenuConfig)
        [Sample.outOfGroup, .delete "固定资产"] := by
  intro h
  have hrefs := congrArg (fun state => refs state.top) h
  revert hrefs
  decide +kernel

end Wbme.Menu

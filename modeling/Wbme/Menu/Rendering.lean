import Wbme.Menu.Resolution

/-! # The rendered menu

A group is rendered when an item lies in it or below it, so the walk over the rendered
groups meets every item, and it meets it once because the parent relation is acyclic.
-/

namespace Wbme.Menu

open Lib.Forest

variable {row : ResolvedMenuItemRow}

section Walk

variable {defaults : List NavigationItem} {menu : ResolvedMenu}

/-! ## Used groups -/

theorem markUsed_closed (hm : menu.Sound) (fuel : Nat) (cursor : Option String)
    (used : List String) (hcursor : ∀ g, cursor = some g → g ∈ menu.groups.map (·.nodeKey))
    (hclosed : ∀ g ∈ used, ∀ p, menu.parentOf g = some p → p ∈ used ∨ cursor = some p)
    (hfuel : unseen (menu.groups.map (·.nodeKey)) used < fuel) :
    (∀ g ∈ used, g ∈ markUsed menu fuel cursor used) ∧
      (∀ g, cursor = some g → g ∈ markUsed menu fuel cursor used) ∧
      ∀ g ∈ markUsed menu fuel cursor used, ∀ p, menu.parentOf g = some p →
        p ∈ markUsed menu fuel cursor used := by
  induction fuel generalizing cursor used with
  | zero => exact absurd hfuel (Nat.not_lt_zero _)
  | succ fuel ih =>
      cases cursor with
      | none =>
          refine ⟨fun _ h => h, by simp, ?_⟩
          intro g hg p hp
          rcases hclosed g hg p hp with h | h
          · exact h
          · cases h
      | some k =>
          unfold markUsed
          by_cases hk : k ∈ used
          · rw [if_pos hk]
            refine ⟨fun _ h => h, fun g hg => Option.some.inj hg ▸ hk, ?_⟩
            intro g hg p hp
            rcases hclosed g hg p hp with h | h
            · exact h
            · exact Option.some.inj h ▸ hk
          · rw [if_neg hk]
            have hlt : unseen _ (k :: used) < unseen _ used := unseen_lt (hcursor k rfl) hk
              (fun _ h => List.mem_cons_of_mem _ h) List.mem_cons_self
            have hrest := ih (menu.parentOf k) (k :: used) (fun g hg => hm.parents k g hg)
              (fun g hg p hp => by
                rcases List.mem_cons.mp hg with heq | hg
                · exact Or.inr (heq ▸ hp)
                · rcases hclosed g hg p hp with h | h
                  · exact Or.inl (List.mem_cons_of_mem _ h)
                  · exact Or.inl (Option.some.inj h ▸ List.mem_cons_self))
              (by omega)
            refine ⟨fun g hg => hrest.1 g (List.mem_cons_of_mem _ hg), ?_, hrest.2.2⟩
            intro g hg
            exact hrest.1 g (Option.some.inj hg ▸ List.mem_cons_self)

theorem usedGroupKeys_closed (hm : menu.Sound) :
    (∀ row ∈ menu.items, ∀ g, row.parentKey = some g → g ∈ usedGroupKeys menu) ∧
      ∀ g ∈ usedGroupKeys menu, ∀ p, menu.parentOf g = some p → p ∈ usedGroupKeys menu := by
  have hloop : ∀ (rest : List ResolvedMenuItemRow) (used : List String),
      (∀ row ∈ rest, row ∈ menu.items) →
      (∀ g ∈ used, ∀ p, menu.parentOf g = some p → p ∈ used) →
      (∀ g, g ∈ used ∨ (∃ row ∈ rest, row.parentKey = some g) →
        g ∈ rest.foldl (fun used row =>
          markUsed menu (menu.groups.length + 1) row.parentKey used) used) ∧
      ∀ g ∈ rest.foldl (fun used row =>
          markUsed menu (menu.groups.length + 1) row.parentKey used) used,
        ∀ p, menu.parentOf g = some p →
          p ∈ rest.foldl (fun used row =>
            markUsed menu (menu.groups.length + 1) row.parentKey used) used := by
    intro rest
    induction rest with
    | nil =>
        intro used _ hclosed
        exact ⟨fun g hg => by simpa using hg, hclosed⟩
    | cons row rest ih =>
        intro used hrest hclosed
        have hunseen := unseen_le_length (menu.groups.map (·.nodeKey)) used
        rw [List.length_map] at hunseen
        have hmark := markUsed_closed hm (menu.groups.length + 1) row.parentKey used
          (hm.homes row (hrest row List.mem_cons_self))
          (fun g hg p hp => Or.inl (hclosed g hg p hp)) (Nat.lt_succ_of_le hunseen)
        have hmore := ih _ (fun r hr => hrest r (List.mem_cons_of_mem _ hr)) hmark.2.2
        refine ⟨?_, hmore.2⟩
        intro g hg
        apply hmore.1
        rcases hg with hg | ⟨r, hr, hg⟩
        · exact Or.inl (hmark.1 g hg)
        · rcases List.mem_cons.mp hr with heq | hr
          · exact Or.inl (hmark.2.1 g (heq ▸ hg))
          · exact Or.inr ⟨r, hr, hg⟩
  have hall := hloop menu.items [] (fun _ h => h) (by simp)
  exact ⟨fun row hrow g hg => hall.1 g (Or.inr ⟨row, hrow, hg⟩), hall.2⟩

theorem mem_usedGroupKeys (hm : menu.Sound) {row : ResolvedMenuItemRow} (hrow : row ∈ menu.items)
    {g : String} (h : Above menu.parentOf (some g) row.parentKey) : g ∈ usedGroupKeys menu := by
  have hclosed := usedGroupKeys_closed hm
  generalize hx : some g = x at h
  induction h generalizing g with
  | refl => exact hclosed.1 row hrow g hx.symm
  | tail _ hstep ih =>
      rcases hstep with ⟨k, hk, hparent⟩
      exact hclosed.2 k (ih hk.symm) g (hparent.trans hx.symm)

/-! ## The walk -/

/-- The groups the walk enters. -/
def renderedGroups (menu : ResolvedMenu) : List String :=
  (menu.groups.map (·.nodeKey)).filter (· ∈ usedGroupKeys menu)

theorem renderedGroups_children (hm : menu.Sound) (p : Option String) :
    (renderedGroups menu).filter (fun g => menu.parentOf g = p) =
      (menu.groups.filter fun row => row.parentKey = p ∧
        row.nodeKey ∈ usedGroupKeys menu).map (·.nodeKey) := by
  unfold renderedGroups
  rw [List.filter_filter, List.filter_map]
  congr 1
  apply List.filter_congr
  intro row hrow
  simp [parentOf_of_mem hm hrow]

theorem containerNodes_perm (menu : ResolvedMenu) (p : Option String) :
    (containerNodes menu p).Perm
      ((menu.items.filter fun row => row.parentKey = p).map .item ++
        (menu.groups.filter fun row => row.parentKey = p ∧
          row.nodeKey ∈ usedGroupKeys menu).map .group) :=
  List.perm_insertionSort _ _

def FromDefaults (defaults : List NavigationItem) (menu : ResolvedMenu) : Prop :=
  ∀ row ∈ menu.items, row.itemKey ∈ defaults.map (·.key)

theorem renderItem_keys (hfrom : FromDefaults defaults menu) (hrow : row ∈ menu.items)
    (ancestors : List String) :
    (renderItem defaults row ancestors).toList.map (·.key) = [row.itemKey] := by
  have hsome := lastRow_isSome.mpr (hfrom row hrow)
  rcases Option.isSome_iff_exists.mp hsome with ⟨source, hsource⟩
  have hkey := (lastRow_key hsource).2
  simp [renderItem, hsource, hkey]

theorem emitContainer_perm (hm : menu.Sound) (hfrom : FromDefaults defaults menu) (fuel : Nat)
    (p : Option String) (ancestors : List String) :
    ((emitContainer defaults menu fuel p ancestors).map (·.key)).Perm
      ((gather menu.parentOf (renderedGroups menu) (·.parentKey) menu.items fuel p).map
        (·.itemKey)) := by
  induction fuel generalizing p ancestors with
  | zero => exact List.Perm.refl _
  | succ fuel ih =>
      unfold emitContainer gather
      rw [List.map_flatMap, List.map_append, List.map_flatMap]
      refine ((containerNodes_perm menu p).flatMap_right _).trans ?_
      rw [List.flatMap_append, List.flatMap_map, List.flatMap_map, renderedGroups_children hm,
        List.flatMap_map]
      apply List.Perm.append
      · apply List.Perm.of_eq
        rw [List.map_eq_flatMap]
        apply List.flatMap_congr
        intro row hrow
        exact renderItem_keys hfrom (List.mem_filter.mp hrow).1 _
      · apply List.Perm.flatMap_left
        intro row _
        exact ih _ _

theorem emitContainer_placed (hm : menu.Sound) (fuel : Nat) (p : Option String)
    (ancestors : List String) {out : NavigationItem}
    (h : out ∈ emitContainer defaults menu fuel p ancestors) :
    ∃ row ∈ menu.items, ∃ path : List ResolvedMenuGroupRow, (∀ g ∈ path, g ∈ menu.groups) ∧
      Descent menu.parentOf p (path.map (·.nodeKey)) row.parentKey ∧
      renderItem defaults row (ancestors ++ path.map (·.displayName)) = some out := by
  induction fuel generalizing p ancestors with
  | zero => simp [emitContainer] at h
  | succ fuel ih =>
      unfold emitContainer at h
      rcases List.mem_flatMap.mp h with ⟨node, hnode, hout⟩
      have hmem := (containerNodes_perm menu p).mem_iff.mp hnode
      rcases List.mem_append.mp hmem with hmem | hmem
      · rcases List.mem_map.mp hmem with ⟨row, hrow, heq⟩
        subst heq
        have hrow := List.mem_filter.mp hrow
        have hp : row.parentKey = p := by simpa using hrow.2
        refine ⟨row, hrow.1, [], by simp, ?_, by simpa using hout⟩
        rw [hp]
        exact Descent.here p
      · rcases List.mem_map.mp hmem with ⟨g, hg, heq⟩
        subst heq
        have hg := List.mem_filter.mp hg
        have hp : g.parentKey = p := by
          have hboth := hg.2
          rw [decide_eq_true_iff] at hboth
          exact hboth.1
        rcases ih _ _ hout with ⟨row, hrow, path, hpath, hdescent, hrender⟩
        refine ⟨row, hrow, g :: path, ?_, ?_, ?_⟩
        · intro j hj
          rcases List.mem_cons.mp hj with heq | hj
          · exact heq ▸ hg.1
          · exact hpath j hj
        · rw [← hp, ← parentOf_of_mem hm hg.1]
          exact Descent.down hdescent
        · simpa using hrender

theorem gather_items (hm : menu.Sound) :
    (gather menu.parentOf (renderedGroups menu) (·.parentKey) menu.items
      (menu.groups.length + 1) none).Perm menu.items := by
  have hcover : ∀ row ∈ menu.items, ∀ g, Above menu.parentOf (some g) row.parentKey →
      g ∈ renderedGroups menu := by
    intro row hrow g habove
    refine List.mem_filter.mpr ⟨?_, by simpa using mem_usedGroupKeys hm hrow habove⟩
    rcases Relation.ReflTransGen.cases_tail habove with heq | ⟨c, -, k, -, hparent⟩
    · exact hm.homes row hrow g heq.symm
    · exact hm.parents k g hparent
  have hlength : (renderedGroups menu).length ≤ menu.groups.length := by
    have hle := List.length_filter_le (· ∈ usedGroupKeys menu) (menu.groups.map (·.nodeKey))
    simpa [renderedGroups] using hle
  exact gather_perm (hm.nodup.filter _) (fun g _ => hm.rooted g) hcover _ (Nat.lt_succ_of_le hlength)

end Walk

/-! ## The whole menu -/

/-- The output stands where the merge puts it: under the display names of its groups. -/
def Placed (menu : ResolvedMenu) (out : NavigationItem) : Prop :=
  ∃ row ∈ menu.items, row.itemKey = out.key ∧
    ∃ path : List ResolvedMenuGroupRow, (∀ g ∈ path, g ∈ menu.groups) ∧
      Descent menu.parentOf none (path.map (·.nodeKey)) row.parentKey ∧
      out.groupPath.getD [] = path.map (·.displayName)

/-- An output is one of the defaults under its own key, with its route and permission. -/
def SameItem (source out : NavigationItem) : Prop :=
  source.key = out.key ∧ source.path = out.path ∧ source.permission = out.permission

theorem renderItem_sameItem {defaults : List NavigationItem} {ancestors : List String}
    {out : NavigationItem} (h : renderItem defaults row ancestors = some out) :
    (∃ source ∈ defaults, SameItem source out) ∧ row.itemKey = out.key ∧
      out.groupPath.getD [] = ancestors := by
  unfold renderItem at h
  rcases Option.map_eq_some_iff.mp h with ⟨source, hsource, hout⟩
  subst hout
  have hrow := lastRow_key hsource
  refine ⟨⟨source, hrow.1, rfl, rfl, rfl⟩, hrow.2.symm, ?_⟩
  by_cases hnil : ancestors = [] <;> simp [hnil]

/-- Whatever is configured, the parents are acyclic, every default item is rendered once, and
nodes whose configured ancestors are in order stay where they are configured. -/
theorem applyMenuConfig_complete (defaults : List NavigationItem) (config : SystemMenuConfig) :
    (∀ k, Rooted (resolveMenuConfig defaults config).parentOf k) ∧
    ((applyMenuConfig defaults config).map (·.key)).Perm (defaults.map (·.key)) ∧
    (∀ out ∈ applyMenuConfig defaults config, ∃ source ∈ defaults, SameItem source out) ∧
    (config = emptyMenuConfig ∨ ∀ out ∈ applyMenuConfig defaults config,
      Placed (resolveMenuConfig defaults config) out) ∧
    (∀ k, SoundChain defaults config (some k) →
      (resolveMenuConfig defaults config).parentOf k = configuredParent defaults config k) ∧
    ∀ row ∈ (resolveMenuConfig defaults config).items,
      SoundChain defaults config
        (configuredItemParent defaults config row.itemKey row.defaultIndex) →
      row.parentKey = configuredItemParent defaults config row.itemKey row.defaultIndex := by
  have hm := resolveMenuConfig_sound defaults config
  refine ⟨hm.rooted, ?_, ?_, ?_, fun _ h => parentOf_of_soundChain h,
    fun _ hrow h => home_of_soundChain hrow h⟩
  · unfold applyMenuConfig
    split
    · exact List.Perm.refl _
    · have hfrom : FromDefaults defaults (resolveMenuConfig defaults config) := by
        intro row hrow
        rw [← resolveMenuConfig_itemKeys defaults config]
        exact List.mem_map_of_mem hrow
      rw [← resolveMenuConfig_itemKeys defaults config]
      exact (emitContainer_perm hm hfrom _ _ _).trans ((gather_items hm).map _)
  · intro out hout
    unfold applyMenuConfig at hout
    split at hout
    · exact ⟨out, hout, rfl, rfl, rfl⟩
    · rcases emitContainer_placed hm _ _ _ hout with ⟨row, _, path, _, _, hrender⟩
      exact (renderItem_sameItem hrender).1
  · by_cases hempty : config.groups = [] ∧ config.items = []
    · left
      rcases config with ⟨groups, items⟩
      simpa [emptyMenuConfig] using hempty
    · right
      intro out hout
      unfold applyMenuConfig at hout
      rw [if_neg hempty] at hout
      rcases emitContainer_placed hm _ _ _ hout with ⟨row, hrow, path, hpath, hdescent, hrender⟩
      have hsame := renderItem_sameItem hrender
      exact ⟨row, hrow, hsame.2.1, path, hpath, hdescent, hsame.2.2⟩

namespace Sample

def leaf (key : String) (group subGroup : Option String) : NavigationItem :=
  ⟨key, key, "/asset/" ++ key, group, subGroup, none, none⟩

def navigation : List NavigationItem :=
  [leaf "assets" (some "固定资产") none, leaf "consumables" (some "消耗品") (some "消耗品管理"),
    leaf "claims" (some "消耗品") (some "消耗品申领"), leaf "approval" none none]

/-- Two groups ask for each other, an item asks for a group that does not exist, and a group
of the user stands in another one. -/
def crossed : SystemMenuConfig where
  groups :=
    [⟨"固定资产", some "消耗品", none, 0⟩, ⟨"消耗品", some "固定资产", none, 1⟩,
      ⟨"custom:outer", none, none, 2⟩, ⟨"custom:inner", some "custom:outer", none, 0⟩]
  items := [⟨"approval", some "已删除分组", none, 0⟩, ⟨"claims", some "custom:inner", none, 0⟩]

end Sample

/-- The circle is cut, nothing is lost, and the nested group of the user stays where it is. -/
theorem applyMenuConfig_complete_crossed :
    ((applyMenuConfig Sample.navigation Sample.crossed).map (·.key)).Perm
        (Sample.navigation.map (·.key)) ∧
      (resolveMenuConfig Sample.navigation Sample.crossed).parentOf "custom:inner" =
        some "custom:outer" := by
  have hcomplete := applyMenuConfig_complete Sample.navigation Sample.crossed
  have houter : SoundChain Sample.navigation Sample.crossed (some "custom:outer") :=
    SoundChain.group (by decide +kernel) SoundChain.top
  have hinner : SoundChain Sample.navigation Sample.crossed (some "custom:inner") :=
    SoundChain.group (by decide +kernel) houter
  exact ⟨hcomplete.2.1, hcomplete.2.2.2.2.1 "custom:inner" hinner⟩

end Wbme.Menu

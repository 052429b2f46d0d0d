import Wbme.Menu.EditorSession

/-! # Checking a configuration on save

The service that stores configurations trims the names, then checks the rows: distinct keys,
declared parents, no cycle. The cycle check walks up from every group and remembers the
groups it passed. Trees that an editing session saves pass every check as they are.
-/

namespace Wbme.Menu

open Lib.Forest

/-! ## The service -/

def normalizeNameOverride (value : Option String) : Option String :=
  value.bind fun name => if trim name = "" then none else some (trim name)

def SystemMenuConfig.normalized (dto : SystemMenuConfig) : SystemMenuConfig :=
  { groups := dto.groups.map fun row =>
      { row with nameOverride := normalizeNameOverride row.nameOverride }
    items := dto.items.map fun row =>
      { row with nameOverride := normalizeNameOverride row.nameOverride } }

def repeatedKey (seen : List String) : List String → Option String
  | [] => none
  | key :: rest => if key ∈ seen then some key else repeatedKey (key :: seen) rest

def parentOfRows (groups : List MenuGroupConfigRow) (nodeKey : String) : Option String :=
  (lastRow (·.nodeKey) groups nodeKey).bind (·.parentKey)

def groupParentFault (groups : List MenuGroupConfigRow) (group : MenuGroupConfigRow) :
    Option String :=
  match group.parentKey with
  | none => none
  | some parentKey =>
      if parentKey = group.nodeKey then some s!"分组不能作为自己的父分组：{group.nodeKey}"
      else if (lastRow (·.nodeKey) groups parentKey).isNone then
        some s!"分组的父分组不存在：{group.nodeKey}"
      else none

/-- Walk up from each group in turn; the outer option is whether all walks have ended. -/
def cycleFault (fuel : Nat) (groups : List MenuGroupConfigRow) :
    List MenuGroupConfigRow → Option (Option String)
  | [] => some none
  | group :: rest =>
      match climb (parentOfRows groups) fuel [group.nodeKey] group.parentKey with
      | none => none
      | some false => some (some s!"分组层级存在循环：{group.nodeKey}")
      | some true => cycleFault fuel groups rest

def itemParentFault (groupKeys : List String) (item : MenuItemConfigRow) : Option String :=
  match item.parentKey with
  | none => none
  | some parentKey =>
      if parentKey ∈ groupKeys then none else some s!"菜单项所属分组不存在：{item.itemKey}"

/-- The stored configuration or the reason of the refusal; without fuel the call is still
under way. -/
def normalizeAndValidateMenuConfig (fuel : Nat) (dto : SystemMenuConfig) :
    Option (Except String SystemMenuConfig) :=
  let config := dto.normalized
  match repeatedKey [] (config.groups.map (·.nodeKey)) with
  | some key => some (.error s!"分组标识重复：{key}")
  | none =>
  match repeatedKey [] (config.items.map (·.itemKey)) with
  | some key => some (.error s!"菜单项标识重复：{key}")
  | none =>
  match config.groups.findSome? (groupParentFault config.groups) with
  | some reason => some (.error reason)
  | none =>
  match cycleFault fuel config.groups config.groups with
  | none => none
  | some (some reason) => some (.error reason)
  | some none =>
  match config.items.findSome? (itemParentFault (config.groups.map (·.nodeKey))) with
  | some reason => some (.error reason)
  | none => some (.ok config)

/-- The rows in the order the service lists them: by place, then as they were written. -/
def SystemMenuConfig.listed (config : SystemMenuConfig) : SystemMenuConfig :=
  { groups := config.groups.insertionSort fun row other => row.sortOrder ≤ other.sortOrder
    items := config.items.insertionSort fun row other => row.sortOrder ≤ other.sortOrder }

/-! ## What is accepted -/

/-- The first group lies directly in the second one. -/
def LiesIn (groups : List MenuGroupConfigRow) (nodeKey parentKey : String) : Prop :=
  ∃ row ∈ groups, row.nodeKey = nodeKey ∧ row.parentKey = some parentKey

/-- Distinct keys, declared parents, and no group in itself at any depth. -/
structure SystemMenuConfig.WellFormed (config : SystemMenuConfig) : Prop where
  groupKeys : (config.groups.map (·.nodeKey)).Nodup
  itemKeys : (config.items.map (·.itemKey)).Nodup
  groupParents : ∀ row ∈ config.groups, ∀ parentKey, row.parentKey = some parentKey →
    parentKey ∈ config.groups.map (·.nodeKey)
  itemParents : ∀ row ∈ config.items, ∀ parentKey, row.parentKey = some parentKey →
    parentKey ∈ config.groups.map (·.nodeKey)
  acyclic : ∀ nodeKey, ¬ Relation.TransGen (LiesIn config.groups) nodeKey nodeKey

theorem repeatedKey_eq_none {seen keys : List String} :
    repeatedKey seen keys = none ↔ keys.Nodup ∧ ∀ key ∈ keys, key ∉ seen := by
  induction keys generalizing seen with
  | nil => simp [repeatedKey]
  | cons key rest ih =>
      unfold repeatedKey
      by_cases hseen : key ∈ seen
      · simp [hseen]
      · rw [if_neg hseen, ih, List.nodup_cons]
        constructor
        · rintro ⟨hnodup, hnew⟩
          refine ⟨⟨fun hmem => hnew key hmem List.mem_cons_self, hnodup⟩, ?_⟩
          intro other hother
          rcases List.mem_cons.mp hother with heq | hmem
          · exact heq ▸ hseen
          · exact fun h => hnew other hmem (List.mem_cons_of_mem _ h)
        · rintro ⟨⟨hfirst, hnodup⟩, hnew⟩
          refine ⟨hnodup, ?_⟩
          intro other hother hmem
          rcases List.mem_cons.mp hmem with heq | hmem
          · exact hfirst (heq ▸ hother)
          · exact hnew other (List.mem_cons_of_mem _ hother) hmem

section Groups

variable {groups : List MenuGroupConfigRow}

theorem lastRow_isNone {k : String} :
    (lastRow (·.nodeKey) groups k).isNone = true ↔ k ∉ groups.map (·.nodeKey) := by
  have hsome : (lastRow (fun row : MenuGroupConfigRow => row.nodeKey) groups k).isSome ↔
      k ∈ groups.map (·.nodeKey) := lastRow_isSome
  rw [← hsome]
  simp

variable {row : MenuGroupConfigRow}

theorem parentOfRows_eq (hnodup : (groups.map (·.nodeKey)).Nodup) (hrow : row ∈ groups) :
    parentOfRows groups row.nodeKey = row.parentKey := by
  unfold parentOfRows
  rw [lastRow_eq_some hnodup hrow]
  rfl

theorem parentOfRows_of_not_mem {k : String} (hk : k ∉ groups.map (·.nodeKey)) :
    parentOfRows groups k = none := by
  unfold parentOfRows
  rw [Option.isNone_iff_eq_none.mp (lastRow_isNone.mpr hk)]
  rfl

theorem liesIn_iff (hnodup : (groups.map (·.nodeKey)).Nodup) {k p : String} :
    LiesIn groups k p ↔ parentOfRows groups k = some p := by
  constructor
  · rintro ⟨row, hrow, hkey, hparent⟩
    rw [← hkey, parentOfRows_eq hnodup hrow, hparent]
  · intro h
    by_cases hk : k ∈ groups.map (·.nodeKey)
    · rcases List.mem_map.mp hk with ⟨row, hrow, hkey⟩
      subst hkey
      rw [parentOfRows_eq hnodup hrow] at h
      exact ⟨row, hrow, rfl, h⟩
    · rw [parentOfRows_of_not_mem hk] at h
      cases h

theorem acyclic_iff (hnodup : (groups.map (·.nodeKey)).Nodup) :
    (∀ k, ¬ Relation.TransGen (LiesIn groups) k k) ↔ Acyclic (parentOfRows groups) := by
  have hrel : LiesIn groups = fun k p => parentOfRows groups k = some p := by
    funext k p
    exact propext (liesIn_iff hnodup)
  unfold Acyclic
  simp only [above_iff_transGen, hrel]

theorem groupParentFault_none (hnodup : (groups.map (·.nodeKey)).Nodup)
    (hacyclic : Acyclic (parentOfRows groups)) {row : MenuGroupConfigRow} (hrow : row ∈ groups) :
    groupParentFault groups row = none ↔
      ∀ parentKey, row.parentKey = some parentKey → parentKey ∈ groups.map (·.nodeKey) := by
  unfold groupParentFault
  cases hparent : row.parentKey with
  | none => simp
  | some parentKey =>
      have hne : parentKey ≠ row.nodeKey := by
        intro heq
        apply hacyclic row.nodeKey
        rw [parentOfRows_eq hnodup hrow, hparent, heq]
        exact Above.refl _
      simp only [hne, if_false, lastRow_isNone, Option.some.injEq, forall_eq']
      by_cases hmem : parentKey ∈ groups.map (·.nodeKey)
      · simp [hmem]
      · simp [hmem]

theorem declared_of_groupParentFault (h : groupParentFault groups row = none) {parentKey : String}
    (hparent : row.parentKey = some parentKey) : parentKey ∈ groups.map (·.nodeKey) := by
  by_contra hmem
  unfold groupParentFault at h
  rw [hparent] at h
  by_cases hself : parentKey = row.nodeKey
  · simp [hself] at h
  · simp only [hself, if_false] at h
    rw [if_pos (lastRow_isNone.mpr hmem)] at h
    cases h

theorem cycleFault_spec {fuel : Nat} (hfuel : groups.length + 1 ≤ fuel)
    (hnodup : (groups.map (·.nodeKey)).Nodup) (rest : List MenuGroupConfigRow)
    (hrest : ∀ row ∈ rest, row ∈ groups) :
    ∃ fault, cycleFault fuel groups rest = some fault ∧
      (fault = none ↔ ∀ row ∈ rest,
        climb (parentOfRows groups) fuel [row.nodeKey] (parentOfRows groups row.nodeKey) =
          some true) := by
  induction rest with
  | nil => exact ⟨none, rfl, by simp⟩
  | cons group rest ih =>
      have hgroup := hrest group List.mem_cons_self
      have hkey : ∀ k ∈ [group.nodeKey], k ∈ groups.map (·.nodeKey) := by
        intro k hk
        rw [List.mem_singleton.mp hk]
        exact List.mem_map_of_mem hgroup
      have hends := climb_isSome (fun _ => parentOfRows_of_not_mem) fuel [group.nodeKey]
        (List.nodup_singleton _) hkey (by simpa using hfuel)
        (parentOfRows groups group.nodeKey)
      rcases Option.isSome_iff_exists.mp hends with ⟨ending, hending⟩
      unfold cycleFault
      rw [← parentOfRows_eq hnodup hgroup, hending]
      cases ending with
      | false => exact ⟨_, rfl, by simp [hending]⟩
      | true =>
          rcases ih fun row hrow => hrest row (List.mem_cons_of_mem _ hrow) with
            ⟨fault, hfault, hiff⟩
          refine ⟨fault, hfault, hiff.trans ?_⟩
          simp [hending]

theorem cycleFault_mono {fuel more : Nat} {rest : List MenuGroupConfigRow}
    {fault : Option String} (h : cycleFault fuel groups rest = some fault) (hmore : fuel ≤ more) :
    cycleFault more groups rest = some fault := by
  induction rest with
  | nil => exact h
  | cons group rest ih =>
      unfold cycleFault at h ⊢
      cases hwalk : climb (parentOfRows groups) fuel [group.nodeKey] group.parentKey with
      | none =>
          rw [hwalk] at h
          cases h
      | some ending =>
          rw [climb_mono hwalk hmore]
          rw [hwalk] at h
          cases ending with
          | false => exact h
          | true => exact ih h

end Groups

theorem itemParentFault_none {keys : List String} {item : MenuItemConfigRow} :
    itemParentFault keys item = none ↔
      ∀ parentKey, item.parentKey = some parentKey → parentKey ∈ keys := by
  unfold itemParentFault
  cases item.parentKey with
  | none => simp
  | some parentKey => simp

section Normalized

variable (dto : SystemMenuConfig)

@[simp] theorem normalized_groupKeys :
    dto.normalized.groups.map (·.nodeKey) = dto.groups.map (·.nodeKey) := by
  simp [SystemMenuConfig.normalized, Function.comp_def]

@[simp] theorem normalized_itemKeys :
    dto.normalized.items.map (·.itemKey) = dto.items.map (·.itemKey) := by
  simp [SystemMenuConfig.normalized, Function.comp_def]

theorem liesIn_normalized : LiesIn dto.normalized.groups = LiesIn dto.groups := by
  funext k p
  simp [LiesIn, SystemMenuConfig.normalized]

theorem wellFormed_normalized : dto.normalized.WellFormed ↔ dto.WellFormed := by
  constructor
  · intro h
    refine ⟨?_, ?_, ?_, ?_, ?_⟩
    · simpa using h.groupKeys
    · simpa using h.itemKeys
    · intro row hrow parentKey hparent
      rw [← normalized_groupKeys]
      exact h.groupParents _ (List.mem_map_of_mem hrow) parentKey hparent
    · intro row hrow parentKey hparent
      rw [← normalized_groupKeys]
      exact h.itemParents _ (List.mem_map_of_mem hrow) parentKey hparent
    · rw [← liesIn_normalized]
      exact h.acyclic
  · intro h
    refine ⟨by simpa using h.groupKeys, by simpa using h.itemKeys, ?_, ?_, ?_⟩
    · intro row hrow parentKey hparent
      rcases List.mem_map.mp hrow with ⟨source, hsource, heq⟩
      rw [normalized_groupKeys]
      exact h.groupParents source hsource parentKey (by rw [← hparent, ← heq])
    · intro row hrow parentKey hparent
      rcases List.mem_map.mp hrow with ⟨source, hsource, heq⟩
      rw [normalized_groupKeys]
      exact h.itemParents source hsource parentKey (by rw [← hparent, ← heq])
    · rw [liesIn_normalized]
      exact h.acyclic

end Normalized

/-- With fuel for the longest walk the call ends; it stores the normalized rows when they are
well formed and refuses them otherwise. -/
theorem normalizeAndValidateMenuConfig_spec {fuel : Nat} (dto : SystemMenuConfig)
    (hfuel : dto.groups.length + 1 ≤ fuel) :
    ∃ outcome, normalizeAndValidateMenuConfig fuel dto = some outcome ∧
      (dto.WellFormed → outcome = .ok dto.normalized) ∧
      (¬ dto.WellFormed → ∃ reason, outcome = .error reason) := by
  have hlength : dto.normalized.groups.length + 1 ≤ fuel := by
    simpa [SystemMenuConfig.normalized] using hfuel
  rw [← wellFormed_normalized]
  unfold normalizeAndValidateMenuConfig
  generalize dto.normalized = config at hlength ⊢
  dsimp only
  cases hgroups : repeatedKey [] (config.groups.map (·.nodeKey)) with
  | some key =>
      refine ⟨_, rfl, fun h => ?_, fun _ => ⟨_, rfl⟩⟩
      rw [repeatedKey_eq_none.mpr ⟨h.groupKeys, by simp⟩] at hgroups
      cases hgroups
  | none =>
  have hnodup := (repeatedKey_eq_none.mp hgroups).1
  cases hitems : repeatedKey [] (config.items.map (·.itemKey)) with
  | some key =>
      refine ⟨_, rfl, fun h => ?_, fun _ => ⟨_, rfl⟩⟩
      rw [repeatedKey_eq_none.mpr ⟨h.itemKeys, by simp⟩] at hitems
      cases hitems
  | none =>
  have hcycle : (∀ k, ¬ Relation.TransGen (LiesIn config.groups) k k) ↔
      ∀ row ∈ config.groups, climb (parentOfRows config.groups) fuel [row.nodeKey]
        (parentOfRows config.groups row.nodeKey) = some true := by
    rw [acyclic_iff hnodup, ← climb_all_iff (fun _ => parentOfRows_of_not_mem)
      (by simpa using hlength), List.forall_mem_map]
  cases hparents : config.groups.findSome? (groupParentFault config.groups) with
  | some reason =>
      refine ⟨_, rfl, fun h => ?_, fun _ => ⟨_, rfl⟩⟩
      have hnone : config.groups.findSome? (groupParentFault config.groups) = none := by
        rw [List.findSome?_eq_none_iff]
        intro row hrow
        rw [groupParentFault_none hnodup ((acyclic_iff hnodup).mp h.acyclic) hrow]
        exact h.groupParents row hrow
      rw [hnone] at hparents
      cases hparents
  | none =>
  rw [List.findSome?_eq_none_iff] at hparents
  rcases cycleFault_spec hlength hnodup config.groups (fun _ h => h) with ⟨fault, hfault, hiff⟩
  rw [hfault]
  cases fault with
  | some reason =>
      refine ⟨_, rfl, fun h => ?_, fun _ => ⟨_, rfl⟩⟩
      have hnone := hiff.mpr (hcycle.mp h.acyclic)
      cases hnone
  | none =>
  cases hhomes : config.items.findSome? (itemParentFault (config.groups.map (·.nodeKey))) with
  | some reason =>
      refine ⟨_, rfl, fun h => ?_, fun _ => ⟨_, rfl⟩⟩
      have hnone : config.items.findSome?
          (itemParentFault (config.groups.map (·.nodeKey))) = none := by
        rw [List.findSome?_eq_none_iff]
        intro item hitem
        exact itemParentFault_none.mpr (h.itemParents item hitem)
      rw [hnone] at hhomes
      cases hhomes
  | none =>
      rw [List.findSome?_eq_none_iff] at hhomes
      have hwell : config.WellFormed :=
        { groupKeys := hnodup
          itemKeys := (repeatedKey_eq_none.mp hitems).1
          groupParents := fun row hrow _ hparent =>
            declared_of_groupParentFault (hparents row hrow) hparent
          itemParents := fun item hitem => itemParentFault_none.mp (hhomes item hitem)
          acyclic := hcycle.mpr (hiff.mp rfl) }
      exact ⟨_, rfl, fun _ => rfl, fun h => absurd hwell h⟩

theorem normalizeAndValidateMenuConfig_mono {fuel more : Nat} {dto : SystemMenuConfig}
    {outcome : Except String SystemMenuConfig}
    (h : normalizeAndValidateMenuConfig fuel dto = some outcome) (hmore : fuel ≤ more) :
    normalizeAndValidateMenuConfig more dto = some outcome := by
  unfold normalizeAndValidateMenuConfig at h ⊢
  generalize dto.normalized = config at h ⊢
  dsimp only at h ⊢
  cases hgroups : repeatedKey [] (config.groups.map (·.nodeKey)) with
  | some key => simpa only [hgroups] using h
  | none =>
  cases hitems : repeatedKey [] (config.items.map (·.itemKey)) with
  | some key => simpa only [hgroups, hitems] using h
  | none =>
  cases hparents : config.groups.findSome? (groupParentFault config.groups) with
  | some reason => simpa only [hgroups, hitems, hparents] using h
  | none =>
  simp only [hgroups, hitems, hparents] at h ⊢
  cases hcycle : cycleFault fuel config.groups config.groups with
  | none =>
      rw [hcycle] at h
      cases h
  | some fault =>
      rw [cycleFault_mono hcycle hmore]
      rw [hcycle] at h
      exact h

end Wbme.Menu

import Wbme.Menu.Merge

/-! # The resolved parent relation

Resolving visits a group, resolves the parent it is going to take and only then closes the
group. Closed groups therefore form a founded list, whatever the configuration asks for. A
group whose candidate parents lead to the top keeps its candidate: the fallback is taken
only on a candidate chain that comes back to a group still being visited.
-/

namespace Wbme.Menu

open Lib.Forest

/-! ## Small facts about rows and keys -/

variable {k : String}

theorem lastRow_key {α : Type} {keyOf : α → String} {rows : List α} {row : α}
    (h : lastRow keyOf rows k = some row) : row ∈ rows ∧ keyOf row = k := by
  unfold lastRow at h
  have hmem := List.mem_of_find?_eq_some h
  have hkey := List.find?_some h
  exact ⟨List.mem_reverse.mp hmem, by simpa using hkey⟩

theorem lastRow_isSome {α : Type} {keyOf : α → String} {rows : List α} :
    (lastRow keyOf rows k).isSome ↔ k ∈ rows.map keyOf := by
  simp [lastRow]

theorem lastRow_eq_some {α : Type} {keyOf : α → String} {rows : List α}
    (hnodup : (rows.map keyOf).Nodup) {row : α} (hrow : row ∈ rows) :
    lastRow keyOf rows (keyOf row) = some row := by
  cases h : lastRow keyOf rows (keyOf row) with
  | none =>
      have hsome := lastRow_isSome.mpr (List.mem_map_of_mem (f := keyOf) hrow)
      simp [h] at hsome
  | some found =>
      have hfound := lastRow_key h
      exact congrArg some (List.inj_on_of_nodup_map hnodup hfound.1 hrow hfound.2)

@[simp] theorem mem_distinct {keys : List String} : k ∈ distinct keys ↔ k ∈ keys := by
  simp [distinct]

theorem distinct_nodup (keys : List String) : (distinct keys).Nodup := by
  simpa [distinct] using List.nodup_dedup keys.reverse

/-- How many of the keys are not marked yet. -/
def unseen (keys seen : List String) : Nat := (keys.filter (· ∉ seen)).length

theorem unseen_lt {keys seen seen' : List String} (hk : k ∈ keys) (hnew : k ∉ seen)
    (hsub : ∀ j ∈ seen, j ∈ seen') (hk' : k ∈ seen') : unseen keys seen' < unseen keys seen := by
  have hfilter : keys.filter (· ∉ seen') = (keys.filter (· ∉ seen)).filter (· ∉ seen') := by
    rw [List.filter_filter]
    apply List.filter_congr
    intro j _
    by_cases hj : j ∈ seen
    · simp [hj, hsub j hj]
    · simp [hj]
  unfold unseen
  rw [hfilter, List.length_filter_lt_length_iff_exists]
  exact ⟨k, List.mem_filter.mpr ⟨hk, by simpa using hnew⟩, by simpa using hk'⟩

theorem unseen_le_length (keys seen : List String) : unseen keys seen ≤ keys.length :=
  List.length_filter_le _ _

/-! ## One call of the resolver -/

/-- The marked nodes of a state. -/
def Resolution.marked (s : Resolution) : List String := s.visiting ++ s.done.map (·.1)

/-- What holds between the calls: the closed nodes are founded and none of them is open, and
those whose candidates lead to the top have their candidates. -/
structure Resolution.Sound (candidate : String → Option String) (keys : List String)
    (s : Resolution) : Prop where
  founded : Founded s.done
  apart : ∀ k ∈ s.done.map (·.1), k ∉ s.visiting
  known : ∀ k ∈ s.done.map (·.1), k ∈ keys
  kept : ∀ k ∈ s.done.map (·.1), Rooted candidate k → parentIn s.done k = candidate k

/-- A node may be entered: no open node lies on its way to the top, and when its candidates
run in a circle then so do those of every open node. -/
structure Resolution.Enterable (candidate : String → Option String) (s : Resolution)
    (nodeKey : String) : Prop where
  closed : nodeKey ∉ s.visiting
  circle : ¬ Rooted candidate nodeKey → ∀ v ∈ s.visiting, ¬ Rooted candidate v
  clear : Rooted candidate nodeKey → ∀ a, Above candidate (some a) (some nodeKey) → a ∉ s.visiting

/-- What a call adds: the open nodes are the same again, and the node is closed. -/
structure Resolution.Extends (s s' : Resolution) (nodeKey : String) : Prop where
  visiting : s'.visiting = s.visiting
  grows : ∀ k ∈ s.done.map (·.1), k ∈ s'.done.map (·.1)
  closes : nodeKey ∈ s'.done.map (·.1)

section Resolver

variable {candidate fallback : String → Option String} {keys : List String} {s : Resolution}
  {nodeKey : String}

theorem Resolution.Sound.finish {t : Resolution} {parent : Option String}
    (ht : t.Sound candidate keys) (hvisiting : t.visiting = nodeKey :: s.visiting)
    (hk : nodeKey ∈ keys) (hopen : nodeKey ∉ s.visiting)
    (hparent : ∀ p, parent = some p → p ∈ t.done.map (·.1))
    (hkept : Rooted candidate nodeKey → parent = candidate nodeKey) :
    (t.finish nodeKey parent).Sound candidate keys ∧
      (t.finish nodeKey parent).visiting = s.visiting := by
  have hnew : nodeKey ∉ t.done.map (·.1) := by
    intro hmem
    have hnot := ht.apart nodeKey hmem
    rw [hvisiting] at hnot
    exact hnot List.mem_cons_self
  have herase : (t.finish nodeKey parent).visiting = s.visiting := by
    simp [Resolution.finish, hvisiting]
  refine ⟨⟨⟨hnew, hparent, ht.founded⟩, ?_, ?_, ?_⟩, herase⟩
  · intro k hmem
    rw [herase]
    rcases List.mem_cons.mp hmem with heq | hmem
    · exact heq ▸ hopen
    · have hnot := ht.apart k hmem
      rw [hvisiting] at hnot
      exact fun hin => hnot (List.mem_cons_of_mem _ hin)
  · intro k hmem
    rcases List.mem_cons.mp hmem with heq | hmem
    · exact heq ▸ hk
    · exact ht.known k hmem
  · intro k hmem hrooted
    rcases List.mem_cons.mp hmem with heq | hmem
    · subst heq
      exact (parentIn_cons_self _ _ _).trans (hkept hrooted)
    · have hne : k ≠ nodeKey := fun heq => hnew (heq ▸ hmem)
      exact (parentIn_cons_ne _ _ hne).trans (ht.kept k hmem hrooted)

variable {c : String}

theorem Rooted.of_candidate (hc : candidate nodeKey = some c) :
    Rooted candidate nodeKey ↔ Rooted candidate c := by
  constructor
  · intro h
    cases h with
    | top h => rw [hc] at h; cases h
    | under h hp =>
        rw [hc, Option.some.injEq] at h
        exact h ▸ hp
  · exact Rooted.under hc

theorem Resolution.Enterable.toCandidate (h : s.Enterable candidate nodeKey)
    (hc : candidate nodeKey = some c) (hopen : c ∉ (s.visit nodeKey).visiting) :
    (s.visit nodeKey).Enterable candidate c := by
  refine ⟨hopen, ?_, ?_⟩
  · intro hcircle v hv
    have hnode : ¬ Rooted candidate nodeKey := fun hr =>
      hcircle ((Rooted.of_candidate hc).mp hr)
    rcases List.mem_cons.mp hv with heq | hv
    · exact heq ▸ hnode
    · exact h.circle hnode v hv
  · intro hrooted a ha
    have hnode : Rooted candidate nodeKey := (Rooted.of_candidate hc).mpr hrooted
    have hup : Above candidate (some c) (some nodeKey) := hc ▸ (Above.refl _).step
    intro hmem
    rcases List.mem_cons.mp hmem with heq | hmem
    · subst heq
      have hself := hnode.not_above_parent
      rw [hc] at hself
      exact hself ha
    · exact h.clear hnode a (ha.trans hup) hmem

theorem Resolution.Enterable.not_rooted (h : s.Enterable candidate nodeKey)
    (hc : candidate nodeKey = some c) (hopen : c ∈ (s.visit nodeKey).visiting) :
    ¬ Rooted candidate nodeKey := by
  intro hrooted
  have hup : Above candidate (some c) (some nodeKey) := hc ▸ (Above.refl _).step
  rcases List.mem_cons.mp hopen with heq | hmem
  · subst heq
    have hself := hrooted.not_above_parent
    rw [hc] at hself
    exact hself (Above.refl _)
  · exact h.clear hrooted c hup hmem

theorem Resolution.Enterable.toFallback {d : String} (h : s.Enterable candidate nodeKey)
    (hcircle : ¬ Rooted candidate nodeKey) (hopen : d ∉ (s.visit nodeKey).visiting) :
    (s.visit nodeKey).Enterable candidate d := by
  have hall : ∀ v ∈ (s.visit nodeKey).visiting, ¬ Rooted candidate v := by
    intro v hv
    rcases List.mem_cons.mp hv with heq | hv
    · exact heq ▸ hcircle
    · exact h.circle hcircle v hv
  refine ⟨hopen, fun _ => hall, ?_⟩
  intro hrooted a ha hmem
  apply hall a hmem
  clear hmem hopen
  -- everything above a node that leads to the top leads to the top
  generalize hx : some a = x at ha
  induction ha generalizing a with
  | refl =>
      cases hx
      exact hrooted
  | tail _ hstep ih =>
      rcases hstep with ⟨k, hk, hparent⟩
      subst hx
      exact (Rooted.of_candidate hparent).mp (ih k hk.symm)

theorem Resolution.Sound.visit (h : s.Sound candidate keys) (hnew : s.isDone nodeKey = false) :
    (s.visit nodeKey).Sound candidate keys := by
  refine ⟨h.founded, ?_, h.known, h.kept⟩
  intro k hk hmem
  rcases List.mem_cons.mp hmem with heq | hmem
  · subst heq
    simp only [Resolution.isDone, decide_eq_false_iff_not] at hnew
    exact hnew hk
  · exact h.apart k hk hmem

theorem unseen_visit (hk : nodeKey ∈ keys) (hopen : nodeKey ∉ s.visiting)
    (hnew : s.isDone nodeKey = false) :
    unseen keys (s.visit nodeKey).marked < unseen keys s.marked := by
  apply unseen_lt hk
  · simp only [Resolution.isDone, decide_eq_false_iff_not] at hnew
    intro hmem
    rcases List.mem_append.mp hmem with hmem | hmem
    · exact hopen hmem
    · exact hnew hmem
  · intro j hj
    exact List.mem_cons_of_mem _ hj
  · exact List.mem_cons_self

theorem resolveNode_sound (hcandidate : ∀ k c, candidate k = some c → c ∈ keys)
    (hfallback : ∀ k d, fallback k = some d → d ∈ keys) (fuel : Nat)
    (hs : s.Sound candidate keys) (hk : nodeKey ∈ keys)
    (henter : s.Enterable candidate nodeKey) (hfuel : unseen keys s.marked < fuel) :
    (resolveNode candidate fallback fuel nodeKey s).Sound candidate keys ∧
      s.Extends (resolveNode candidate fallback fuel nodeKey s) nodeKey := by
  induction fuel generalizing s nodeKey with
  | zero => exact absurd hfuel (Nat.not_lt_zero _)
  | succ fuel ih =>
      unfold resolveNode
      by_cases hdone : s.isDone nodeKey = true
      · rw [if_pos hdone]
        simp only [Resolution.isDone, decide_eq_true_iff] at hdone
        exact ⟨hs, rfl, fun _ h => h, hdone⟩
      · rw [if_neg hdone]
        have hnew : s.isDone nodeKey = false := by simpa using hdone
        have hvisit := hs.visit hnew
        have hless := unseen_visit hk henter.closed hnew
        -- closing the node, under a parent that a further call has closed or under none
        have hclose : ∀ {t : Resolution} {parent : Option String}, t.Sound candidate keys →
            t.visiting = (s.visit nodeKey).visiting →
            (∀ k ∈ s.done.map (·.1), k ∈ t.done.map (·.1)) →
            (∀ p, parent = some p → p ∈ t.done.map (·.1)) →
            (Rooted candidate nodeKey → parent = candidate nodeKey) →
            (t.finish nodeKey parent).Sound candidate keys ∧
              s.Extends (t.finish nodeKey parent) nodeKey := by
          intro t parent ht hvisiting hgrows hparent hkept
          have hfinish := ht.finish (s := s) hvisiting hk henter.closed hparent hkept
          exact ⟨hfinish.1, hfinish.2, fun k h => List.mem_cons_of_mem _ (hgrows k h),
            List.mem_cons_self⟩
        cases hc : candidate nodeKey with
        | none => exact hclose hvisit rfl (fun _ h => h) (by simp) (fun _ => hc.symm)
        | some c =>
            by_cases hopen : c ∉ (s.visit nodeKey).visiting
            · have hcall := ih hvisit (hcandidate _ _ hc) (henter.toCandidate hc hopen) (by omega)
              simp only [if_pos hopen]
              exact hclose hcall.1 hcall.2.visiting hcall.2.grows
                (fun p hp => Option.some.inj hp ▸ hcall.2.closes) (fun _ => hc.symm)
            · simp only [if_neg hopen]
              have hcircle := henter.not_rooted hc (not_not.mp hopen)
              cases hd : fallback nodeKey with
              | none => exact hclose hvisit rfl (fun _ h => h) (by simp) (absurd · hcircle)
              | some d =>
                  by_cases hfree : d ≠ c ∧ d ∉ (s.visit nodeKey).visiting
                  · have hcall := ih hvisit (hfallback _ _ hd)
                      (henter.toFallback hcircle hfree.2) (by omega)
                    simp only [if_pos hfree]
                    exact hclose hcall.1 hcall.2.visiting hcall.2.grows
                      (fun p hp => Option.some.inj hp ▸ hcall.2.closes) (absurd · hcircle)
                  · simp only [if_neg hfree]
                    exact hclose hvisit rfl (fun _ h => h) (by simp) (absurd · hcircle)

theorem resolveAll_sound (hcandidate : ∀ k c, candidate k = some c → c ∈ keys)
    (hfallback : ∀ k d, fallback k = some d → d ∈ keys) :
    (resolveAll candidate fallback keys).Sound candidate keys ∧
      ∀ k, k ∈ (resolveAll candidate fallback keys).done.map (·.1) ↔ k ∈ keys := by
  have hloop : ∀ (rest : List String) (s : Resolution), (∀ k ∈ rest, k ∈ keys) →
      s.Sound candidate keys → s.visiting = [] →
      (rest.foldl (fun s k => resolveNode candidate fallback (keys.length + 1) k s) s).Sound
          candidate keys ∧
        (∀ k, k ∈ rest ∨ k ∈ s.done.map (·.1) →
          k ∈ (rest.foldl (fun s k => resolveNode candidate fallback (keys.length + 1) k s)
            s).done.map (·.1)) := by
    intro rest
    induction rest with
    | nil =>
        intro s _ hs _
        exact ⟨hs, fun k hk => by simpa using hk⟩
    | cons k rest ih =>
        intro s hrest hs hnone
        have henter : s.Enterable candidate k := by
          refine ⟨?_, ?_, ?_⟩ <;> simp [hnone]
        have hcall := resolveNode_sound hcandidate hfallback (keys.length + 1) hs
          (hrest k List.mem_cons_self) henter (Nat.lt_succ_of_le (unseen_le_length _ _))
        have hloop := ih _ (fun j hj => hrest j (List.mem_cons_of_mem _ hj)) hcall.1
          (hcall.2.visiting.trans hnone)
        refine ⟨hloop.1, ?_⟩
        intro j hj
        apply hloop.2
        rcases hj with hj | hj
        · rcases List.mem_cons.mp hj with heq | hj
          · exact Or.inr (heq ▸ hcall.2.closes)
          · exact Or.inl hj
        · exact Or.inr (hcall.2.grows j hj)
  have hempty : (⟨[], []⟩ : Resolution).Sound candidate keys :=
    ⟨trivial, by simp, by simp, by simp⟩
  have hall := hloop keys ⟨[], []⟩ (fun _ h => h) hempty rfl
  exact ⟨hall.1, fun k => ⟨hall.1.known k, fun hk => hall.2 k (Or.inl hk)⟩⟩

end Resolver

/-! ## The configuration of the code -/

def groupPairs (groups : List MenuGroupConfigRow) : List (String × Option String) :=
  groups.map fun row => (row.nodeKey, row.parentKey)

@[simp] theorem groupPairs_keys (groups : List MenuGroupConfigRow) :
    (groupPairs groups).map (·.1) = groups.map (·.nodeKey) := by
  simp [groupPairs]

/-- Every group is written after the group it lies in, and items lie in written groups. -/
structure IdentityState.Sound (s : IdentityState) : Prop where
  founded : Founded (groupPairs s.groups.reverse)
  homes : ∀ row ∈ s.items, ∀ p, row.parentKey = some p → p ∈ s.groups.map (·.nodeKey)

variable {s : IdentityState}

theorem enterGroup_sound {parentKey : Option String} (hs : s.Sound)
    (hparent : ∀ p, parentKey = some p → p ∈ s.groups.map (·.nodeKey)) (name : String) :
    (enterGroup (s, parentKey) name).1.Sound ∧
      ∀ p, (enterGroup (s, parentKey) name).2 = some p →
        p ∈ (enterGroup (s, parentKey) name).1.groups.map (·.nodeKey) := by
  unfold enterGroup
  dsimp only
  generalize groupNodeKey parentKey name = nodeKey
  by_cases hmem : nodeKey ∈ s.groups.map (·.nodeKey)
  · rw [if_pos hmem]
    refine ⟨hs, ?_⟩
    intro p hp
    exact Option.some.inj hp ▸ hmem
  · rw [if_neg hmem]
    refine ⟨⟨?_, ?_⟩, ?_⟩
    · simp only [List.reverse_append, List.reverse_cons, List.reverse_nil, List.nil_append,
        List.singleton_append]
      refine ⟨?_, ?_, hs.founded⟩
      · simpa [groupPairs] using hmem
      · intro q hq
        simpa [groupPairs] using hparent q hq
    · intro row hrow p hp
      simp [hs.homes row hrow p hp]
    · intro p hp
      rw [Option.some.injEq] at hp
      simp [hp]

theorem addDefaultItem_sound (hs : s.Sound) (item : NavigationItem) :
    (addDefaultItem s item).Sound := by
  have hpath : ∀ (path : List String) (at_ : IdentityState × Option String), at_.1.Sound →
      (∀ p, at_.2 = some p → p ∈ at_.1.groups.map (·.nodeKey)) →
      (path.foldl enterGroup at_).1.Sound ∧
        ∀ p, (path.foldl enterGroup at_).2 = some p →
          p ∈ (path.foldl enterGroup at_).1.groups.map (·.nodeKey) := by
    intro path
    induction path with
    | nil =>
        intro at_ h hp
        exact ⟨h, hp⟩
    | cons name path ih =>
        intro at_ h hp
        have hstep := enterGroup_sound h hp name
        exact ih _ hstep.1 hstep.2
  have hend := hpath item.defaultPath (s, none) hs (by simp)
  unfold addDefaultItem
  refine ⟨hend.1.founded, ?_⟩
  intro row hrow p hp
  rcases List.mem_append.mp hrow with hrow | hrow
  · exact hend.1.homes row hrow p hp
  · rw [List.mem_singleton] at hrow
    subst hrow
    exact hend.2 p hp

theorem configFromDefaults_sound (defaults : List NavigationItem) :
    Founded (groupPairs (configFromDefaults defaults).groups.reverse) ∧
      ∀ row ∈ (configFromDefaults defaults).items, ∀ p, row.parentKey = some p →
        p ∈ (configFromDefaults defaults).groups.map (·.nodeKey) := by
  have hloop : ∀ (rest : List NavigationItem) (s : IdentityState), s.Sound →
      (rest.foldl addDefaultItem s).Sound := by
    intro rest
    induction rest with
    | nil => exact fun _ h => h
    | cons item rest ih => exact fun s h => ih _ (addDefaultItem_sound h item)
  have hall := hloop defaults ⟨[], [], fun _ => 0⟩ ⟨trivial, by simp⟩
  exact ⟨hall.founded, hall.homes⟩

theorem identityParent_mem {defaults : List NavigationItem} {k p : String}
    (h : identityParent (configFromDefaults defaults) k = some p) :
    p ∈ (configFromDefaults defaults).groups.map (·.nodeKey) := by
  have hfounded := (configFromDefaults_sound defaults).1
  have hparent : identityParent (configFromDefaults defaults) k =
      parentIn (groupPairs (configFromDefaults defaults).groups.reverse) k := by
    simp only [identityParent, lastRow, parentIn, groupPairs, List.find?_map, Option.bind_map]
    rfl
  rw [hparent] at h
  have hmem := hfounded.parent_mem h
  simpa using hmem

section Merge

variable {defaults : List NavigationItem} {config : SystemMenuConfig}

theorem identity_mem_allGroupKeys {identity : SystemMenuConfig}
    (h : k ∈ identity.groups.map (·.nodeKey)) : k ∈ allGroupKeys identity config := by
  simp only [allGroupKeys, mem_distinct, List.mem_append]
  exact Or.inl h

theorem usableParent_mem {keys : List String} {k p : String} {desired fallback : Option String}
    (hfallback : ∀ q, fallback = some q → q ∈ keys)
    (h : usableParent keys k desired fallback = some p) : p ∈ keys := by
  unfold usableParent at h
  cases desired with
  | none => cases h
  | some d =>
      dsimp only at h
      by_cases hd : d = k ∨ d ∉ keys
      · rw [if_pos hd] at h
        exact hfallback p h
      · rw [if_neg hd, Option.some.injEq] at h
        rw [not_or, not_not] at hd
        exact h ▸ hd.2

theorem candidateParent_mem {k p : String}
    (h : candidateParent (configFromDefaults defaults) config k = some p) :
    p ∈ allGroupKeys (configFromDefaults defaults) config := by
  have hbase : ∀ base, lastRow (·.nodeKey) (configFromDefaults defaults).groups k = some base →
      ∀ q, base.parentKey = some q → q ∈ allGroupKeys (configFromDefaults defaults) config := by
    intro base hrow q hq
    apply identity_mem_allGroupKeys
    apply identityParent_mem (k := k)
    simp [identityParent, hrow, hq]
  unfold candidateParent at h
  cases hrow : lastRow (·.nodeKey) (configFromDefaults defaults).groups k with
  | some base =>
      cases hconfig : lastRow (·.nodeKey) config.groups k with
      | some row =>
          simp only [hrow, hconfig] at h
          exact usableParent_mem (hbase base hrow) h
      | none =>
          simp only [hrow, hconfig] at h
          exact usableParent_mem (hbase base hrow) h
  | none =>
      cases hconfig : lastRow (·.nodeKey) config.groups k with
      | some row =>
          simp only [hrow, hconfig] at h
          split at h
          · exact usableParent_mem (by simp) h
          · cases h
      | none => simp [hrow, hconfig] at h

theorem resolveParents_sound (defaults : List NavigationItem) (config : SystemMenuConfig) :
    (resolveAll (candidateParent (configFromDefaults defaults) config)
        (identityParent (configFromDefaults defaults))
        (allGroupKeys (configFromDefaults defaults) config)).Sound
        (candidateParent (configFromDefaults defaults) config)
        (allGroupKeys (configFromDefaults defaults) config) ∧
      ∀ k, k ∈ (resolveAll (candidateParent (configFromDefaults defaults) config)
          (identityParent (configFromDefaults defaults))
          (allGroupKeys (configFromDefaults defaults) config)).done.map (·.1) ↔
        k ∈ allGroupKeys (configFromDefaults defaults) config :=
  resolveAll_sound (fun _ _ h => candidateParent_mem h)
    fun _ _ h => identity_mem_allGroupKeys (identityParent_mem h)

@[simp] theorem resolveMenuConfig_groupKeys :
    (resolveMenuConfig defaults config).groups.map (·.nodeKey) =
      allGroupKeys (configFromDefaults defaults) config := by
  simp [resolveMenuConfig, resolveGroup, Function.comp_def]

theorem resolveMenuConfig_parentOf (k : String) :
    (resolveMenuConfig defaults config).parentOf k =
      parentIn (resolveAll (candidateParent (configFromDefaults defaults) config)
        (identityParent (configFromDefaults defaults))
        (allGroupKeys (configFromDefaults defaults) config)).done k := by
  unfold ResolvedMenu.parentOf
  cases hrow : lastRow (·.nodeKey) (resolveMenuConfig defaults config).groups k with
  | some row =>
      have hkey := lastRow_key hrow
      rcases List.mem_map.mp hkey.1 with ⟨j, -, hj⟩
      have hjk : j = k := by rw [← hkey.2, ← hj]; rfl
      subst hjk hj
      rfl
  | none =>
      have hnot : k ∉ allGroupKeys (configFromDefaults defaults) config := by
        rw [← resolveMenuConfig_groupKeys, ← lastRow_isSome]
        simp [hrow]
      rw [← (resolveParents_sound defaults config).2] at hnot
      have hnone : ((resolveAll (candidateParent (configFromDefaults defaults) config)
          (identityParent (configFromDefaults defaults))
          (allGroupKeys (configFromDefaults defaults) config)).done.find?
            (fun pair => pair.1 = k)) = none := by
        rw [List.find?_eq_none]
        intro pair hpair hk
        exact hnot (List.mem_map.mpr ⟨pair, hpair, by simpa using hk⟩)
      simp [parentIn, hnone]

/-- What the walks over a merge rest on. -/
structure ResolvedMenu.Sound (menu : ResolvedMenu) : Prop where
  nodup : (menu.groups.map (·.nodeKey)).Nodup
  rooted : ∀ k, Rooted menu.parentOf k
  parents : ∀ k p, menu.parentOf k = some p → p ∈ menu.groups.map (·.nodeKey)
  homes : ∀ row ∈ menu.items, ∀ p, row.parentKey = some p → p ∈ menu.groups.map (·.nodeKey)

theorem parentOf_of_mem {menu : ResolvedMenu} (hm : menu.Sound) {row : ResolvedMenuGroupRow}
    (h : row ∈ menu.groups) : menu.parentOf row.nodeKey = row.parentKey := by
  simp [ResolvedMenu.parentOf, lastRow_eq_some hm.nodup h]

theorem resolveItem_home {item : NavigationItem} {index : Nat} {p : String}
    (h : (resolveItem (configFromDefaults defaults) config item index).parentKey = some p) :
    p ∈ allGroupKeys (configFromDefaults defaults) config := by
  have hdefault : ∀ q, ((configFromDefaults defaults).items[index]?).bind (·.parentKey) = some q →
      q ∈ allGroupKeys (configFromDefaults defaults) config := by
    intro q hq
    rcases Option.bind_eq_some_iff.mp hq with ⟨row, hrow, hparent⟩
    exact identity_mem_allGroupKeys
      ((configFromDefaults_sound defaults).2 row (List.mem_of_getElem? hrow) q hparent)
  unfold resolveItem at h
  cases hrow : lastRow (·.itemKey) config.items item.key with
  | none =>
      simp only [hrow] at h
      exact hdefault p h
  | some row =>
      simp only [hrow] at h
      split at h
      · next hall =>
          dsimp only at h
          rw [h] at hall
          simpa using hall
      · exact hdefault p h

theorem resolveMenuConfig_sound (defaults : List NavigationItem) (config : SystemMenuConfig) :
    (resolveMenuConfig defaults config).Sound := by
  have hsound := resolveParents_sound defaults config
  refine ⟨?_, ?_, ?_, ?_⟩
  · rw [resolveMenuConfig_groupKeys]
    exact distinct_nodup _
  · intro k
    have hfun : (resolveMenuConfig defaults config).parentOf =
        parentIn (resolveAll (candidateParent (configFromDefaults defaults) config)
          (identityParent (configFromDefaults defaults))
          (allGroupKeys (configFromDefaults defaults) config)).done :=
      funext resolveMenuConfig_parentOf
    by_cases hk : k ∈ allGroupKeys (configFromDefaults defaults) config
    · rw [hfun]
      exact hsound.1.founded.rooted ((hsound.2 k).mpr hk)
    · apply Rooted.top
      rw [← resolveMenuConfig_groupKeys, ← lastRow_isSome] at hk
      rw [Bool.not_eq_true, Option.isSome_eq_false_iff, Option.isNone_iff_eq_none] at hk
      simp [ResolvedMenu.parentOf, hk]
  · intro k p h
    rw [resolveMenuConfig_parentOf] at h
    rw [resolveMenuConfig_groupKeys, ← hsound.2]
    exact hsound.1.founded.parent_mem h
  · intro row hrow p hp
    rcases List.mem_map.mp hrow with ⟨⟨item, index⟩, -, hitem⟩
    subst hitem
    rw [resolveMenuConfig_groupKeys]
    exact resolveItem_home hp

/-! ## Configured chains -/

/-- The parent the configuration gives to a group: its row's, else the default one. -/
def configuredParent (defaults : List NavigationItem) (config : SystemMenuConfig)
    (nodeKey : String) : Option String :=
  match lastRow (·.nodeKey) config.groups nodeKey with
  | some row => row.parentKey
  | none => identityParent (configFromDefaults defaults) nodeKey

def configuredItemParent (defaults : List NavigationItem) (config : SystemMenuConfig)
    (itemKey : String) (defaultIndex : Nat) : Option String :=
  match lastRow (·.itemKey) config.items itemKey with
  | some row => row.parentKey
  | none => ((configFromDefaults defaults).items[defaultIndex]?).bind (·.parentKey)

/-- The configured ancestors from a place on exist and come to the top. -/
inductive SoundChain (defaults : List NavigationItem) (config : SystemMenuConfig) :
    Option String → Prop where
  | top : SoundChain defaults config none
  | group {nodeKey : String} (h : nodeKey ∈ allGroupKeys (configFromDefaults defaults) config)
      (hchain : SoundChain defaults config (configuredParent defaults config nodeKey)) :
      SoundChain defaults config (some nodeKey)

theorem SoundChain.mem {k : String} (h : SoundChain defaults config (some k)) :
    k ∈ allGroupKeys (configFromDefaults defaults) config := by
  cases h with
  | group h _ => exact h

theorem SoundChain.not_self (h : SoundChain defaults config (some k)) :
    configuredParent defaults config k ≠ some k := by
  have hall : ∀ place, SoundChain defaults config place → ∀ j, place = some j →
      configuredParent defaults config j ≠ some j := by
    intro place hplace
    induction hplace with
    | top => simp
    | @group i _ _ ih =>
        intro j hj heq
        rw [Option.some.injEq] at hj
        subst hj
        exact ih i heq heq
  exact hall _ h k rfl

theorem SoundChain.candidate (h : SoundChain defaults config (some k)) :
    candidateParent (configFromDefaults defaults) config k =
      configuredParent defaults config k := by
  have husable : ∀ fallback, usableParent (allGroupKeys (configFromDefaults defaults) config) k
      (configuredParent defaults config k) fallback = configuredParent defaults config k := by
    intro fallback
    cases hp : configuredParent defaults config k with
    | none => rfl
    | some p =>
        have hchain : SoundChain defaults config (some p) := by
          cases h with
          | group _ hchain => exact hp ▸ hchain
        have hne : p ≠ k := fun heq => h.not_self (heq ▸ hp)
        simp [usableParent, hne, hchain.mem]
  have hmem := h.mem
  unfold candidateParent
  unfold configuredParent at husable ⊢
  unfold identityParent at husable ⊢
  cases hrow : lastRow (·.nodeKey) (configFromDefaults defaults).groups k with
  | some base =>
      cases hconfig : lastRow (·.nodeKey) config.groups k with
      | some row =>
          simp only [hconfig] at husable ⊢
          exact husable _
      | none =>
          simp only [hrow, hconfig, Option.bind_some] at husable ⊢
          exact husable _
  | none =>
      cases hconfig : lastRow (·.nodeKey) config.groups k with
      | some row =>
          simp only [hconfig] at husable ⊢
          have hcustom : isCustomGroupNodeKey k = true := by
            simp only [allGroupKeys, mem_distinct, List.mem_append] at hmem
            rcases hmem with hmem | hmem
            · rw [← lastRow_isSome, hrow] at hmem
              cases hmem
            · rcases List.mem_map.mp hmem with ⟨other, hother, hkey⟩
              rw [← hkey]
              exact (List.mem_filter.mp hother).2
          rw [if_pos hcustom]
          exact husable _
      | none => rfl

theorem SoundChain.rooted {k : String} (h : SoundChain defaults config (some k)) :
    Rooted (candidateParent (configFromDefaults defaults) config) k := by
  generalize hx : some k = x at h
  induction h generalizing k with
  | top => cases hx
  | @group j hmem hchain ih =>
      rw [Option.some.injEq] at hx
      subst hx
      have hcandidate := (SoundChain.group hmem hchain).candidate
      cases hp : configuredParent defaults config k with
      | none => exact Rooted.top (hcandidate.trans hp)
      | some p => exact Rooted.under (hcandidate.trans hp) (ih hp.symm)

theorem parentOf_of_soundChain (h : SoundChain defaults config (some k)) :
    (resolveMenuConfig defaults config).parentOf k = configuredParent defaults config k := by
  have hsound := resolveParents_sound defaults config
  rw [resolveMenuConfig_parentOf]
  exact (hsound.1.kept k ((hsound.2 k).mpr h.mem) h.rooted).trans h.candidate

@[simp] theorem resolveItem_itemKey (identity config : SystemMenuConfig) (item : NavigationItem)
    (index : Nat) : (resolveItem identity config item index).itemKey = item.key := by
  unfold resolveItem
  cases lastRow (·.itemKey) config.items item.key with
  | none => rfl
  | some row => dsimp only; split <;> rfl

@[simp] theorem resolveItem_defaultIndex (identity config : SystemMenuConfig)
    (item : NavigationItem) (index : Nat) :
    (resolveItem identity config item index).defaultIndex = index := by
  unfold resolveItem
  cases lastRow (·.itemKey) config.items item.key with
  | none => rfl
  | some row => dsimp only; split <;> rfl

theorem resolveMenuConfig_itemKeys (defaults : List NavigationItem) (config : SystemMenuConfig) :
    (resolveMenuConfig defaults config).items.map (·.itemKey) = defaults.map (·.key) := by
  simp only [resolveMenuConfig, List.map_map]
  conv_rhs => rw [← List.zipIdx_map_fst 0 defaults, List.map_map]
  apply List.map_congr_left
  intro pair _
  exact resolveItem_itemKey _ _ _ _

theorem home_of_soundChain {row : ResolvedMenuItemRow}
    (hrow : row ∈ (resolveMenuConfig defaults config).items) (h : SoundChain defaults config
      (configuredItemParent defaults config row.itemKey row.defaultIndex)) :
    row.parentKey = configuredItemParent defaults config row.itemKey row.defaultIndex := by
  rcases List.mem_map.mp hrow with ⟨⟨item, index⟩, -, hitem⟩
  subst hitem
  simp only [resolveItem_itemKey, resolveItem_defaultIndex] at h ⊢
  unfold configuredItemParent at h ⊢
  unfold resolveItem
  cases hlast : lastRow (·.itemKey) config.items item.key with
  | none => rfl
  | some last =>
      simp only [hlast] at h
      have hall : last.parentKey.all
          (fun p => decide (p ∈ allGroupKeys (configFromDefaults defaults) config)) = true := by
        cases hp : last.parentKey with
        | none => rfl
        | some p =>
            rw [hp] at h
            simpa using h.mem
      simp only [hall, if_true]

end Merge

end Wbme.Menu

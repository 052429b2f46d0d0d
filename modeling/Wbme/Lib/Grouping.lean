import Mathlib.Data.List.Forall2
import Mathlib.Data.List.Nodup
import Mathlib.Data.List.Perm.Basic
import Mathlib.Data.List.TakeWhile

/-! # Grouping

The members of a list by a key, under each key as they stand, and the keys in the order in
which they appear. Every member is in one group. What the order of the groups and the order
in them is, is read off the list.
-/

namespace Wbme.Lib

variable {α κ : Type} [DecidableEq κ]

/-- The members by their keys. -/
def groupsBy (key : α → κ) (l : List α) : List (κ × List α) :=
  (l.map key).eraseDups.map fun k => (k, l.filter fun a => key a = k)

theorem eraseDups_nodup (ks : List κ) : ks.eraseDups.Nodup := by
  induction hn : ks.length using Nat.strongRecOn generalizing ks with
  | ind n ih =>
      cases ks with
      | nil => simp
      | cons k ks =>
          rw [List.eraseDups_cons, List.nodup_cons]
          refine ⟨by simp [List.mem_eraseDups], ih _ ?_ _ rfl⟩
          rw [List.length_cons] at hn
          have hle := List.length_filter_le (fun b => !b == k) ks
          omega

theorem flatMap_filter_perm (key : α → κ) {ks : List κ} (hks : ks.Nodup) (l : List α) :
    (ks.flatMap fun k => l.filter fun a => key a = k).Perm (l.filter fun a => key a ∈ ks) := by
  induction ks with
  | nil => simp
  | cons k ks ih =>
      have hnodup := List.nodup_cons.mp hks
      have hsplit := List.filter_append_perm (fun a => decide (key a = k))
        (l.filter fun a => key a ∈ k :: ks)
      have hfirst : (l.filter fun a => key a ∈ k :: ks).filter (fun a => key a = k) =
          l.filter fun a => key a = k := by
        rw [List.filter_filter]
        apply List.filter_congr
        intro a _
        by_cases h : key a = k <;> simp [h]
      have hrest : (l.filter fun a => key a ∈ k :: ks).filter (fun a => !decide (key a = k)) =
          l.filter fun a => key a ∈ ks := by
        rw [List.filter_filter]
        apply List.filter_congr
        intro a _
        by_cases h : key a = k
        · simp [h, hnodup.1]
        · simp [h]
      rw [hfirst, hrest] at hsplit
      rw [List.flatMap_cons]
      exact ((ih hnodup.2).append_left _).trans hsplit

/-- Every member is in one group. -/
theorem groupsBy_perm (key : α → κ) (l : List α) : ((groupsBy key l).flatMap (·.2)).Perm l := by
  unfold groupsBy
  rw [List.flatMap_map]
  refine (flatMap_filter_perm key (eraseDups_nodup _) l).trans (List.Perm.of_eq ?_)
  rw [List.filter_eq_self]
  intro a ha
  rw [decide_eq_true_iff, List.mem_eraseDups]
  exact List.mem_map_of_mem ha

variable {key : α → κ} {l : List α}

theorem mem_groupsBy {g : κ × List α} :
    g ∈ groupsBy key l ↔ g.1 ∈ l.map key ∧ g.2 = l.filter fun a => key a = g.1 := by
  unfold groupsBy
  rw [List.mem_map]
  constructor
  · intro h
    rcases h with ⟨k, hk, heq⟩
    subst heq
    exact ⟨List.mem_eraseDups.mp hk, rfl⟩
  · intro h
    exact ⟨g.1, List.mem_eraseDups.mpr h.1, Prod.ext rfl h.2.symm⟩

/-- The group of a member. -/
theorem mem_group {a : α} (ha : a ∈ l) :
    (key a, l.filter fun b => key b = key a) ∈ groupsBy key l ∧
      a ∈ l.filter fun b => key b = key a :=
  ⟨mem_groupsBy.mpr ⟨List.mem_map_of_mem ha, rfl⟩, List.mem_filter.mpr ⟨ha, by simp⟩⟩

theorem groupsBy_keys (key : α → κ) (l : List α) :
    (groupsBy key l).Pairwise fun g h => g.1 ≠ h.1 := by
  unfold groupsBy
  rw [List.pairwise_map]
  exact eraseDups_nodup _

/-- A key stands before no other one exactly when all the others appear before it does. -/
theorem eraseDups_last_iff {ks : List κ} {k : κ} :
    (ks.eraseDups.Pairwise fun j _ => j ≠ k) ↔
      ∀ j ∈ ks, j ≠ k → j ∈ ks.takeWhile (· ≠ k) := by
  by_cases hk : k ∈ ks
  · rcases List.eq_append_cons_of_mem hk with ⟨front, back, heq, hfront⟩
    have hwhile : ks.takeWhile (· ≠ k) = front := by
      rw [heq, List.takeWhile_append_of_pos, List.takeWhile_cons_of_neg (by simp),
        List.append_nil]
      intro j hj
      simpa using fun h : j = k => hfront (h ▸ hj)
    have hremove : (k :: back).removeAll front = k :: back.removeAll front := by
      simp [List.removeAll, hfront]
    rw [hwhile, heq, List.eraseDups_append, hremove, List.eraseDups_cons, List.pairwise_append,
      List.pairwise_cons]
    constructor
    · intro hpair j hj hne
      by_contra hnot
      have hlate : j ∈ ((back.removeAll front).filter fun b => !b == k).eraseDups := by
        rw [List.mem_eraseDups, List.mem_filter]
        have hback : j ∈ back := by
          rcases List.mem_append.mp hj with hin | hin
          · exact absurd hin hnot
          · rcases List.mem_cons.mp hin with h | h
            · exact absurd h hne
            · exact h
        simp [List.removeAll, hback, hnot, hne]
      exact hpair.2.1.1 j hlate rfl
    · intro hall
      have hempty : (back.removeAll front).filter (fun b => !b == k) = [] := by
        rw [List.filter_eq_nil_iff]
        intro j hj hne
        simp only [List.removeAll, List.mem_filter, Bool.not_eq_true', List.elem_eq_mem,
          decide_eq_false_iff_not] at hj
        have hne' : j ≠ k := by simpa using hne
        exact hj.2 (hall j (by simp [hj.1]) hne')
      rw [hempty]
      refine ⟨?_, ⟨by simp, by simp⟩, ?_⟩
      · apply List.pairwise_of_forall_mem_list
        intro i hi j _ h
        rw [List.mem_eraseDups] at hi
        exact hfront (h ▸ hi)
      · intro i hi j _ h
        rw [List.mem_eraseDups] at hi
        exact hfront (h ▸ hi)
  · have hwhile : ks.takeWhile (· ≠ k) = ks := by
      rw [List.takeWhile_eq_self_iff]
      intro j hj
      simpa using fun h : j = k => hk (h ▸ hj)
    rw [hwhile]
    refine iff_of_true ?_ (fun _ hj _ => hj)
    apply List.pairwise_of_forall_mem_list
    intro i hi j _ h
    rw [List.mem_eraseDups] at hi
    exact hk (h ▸ hi)

omit [DecidableEq κ] in
/-- In a strictly ordered list the members before all that fail a test. -/
theorem mem_takeWhile_iff {r : α → α → Prop} (hasymm : ∀ a b, r a b → ¬ r b a) {l : List α}
    (hl : l.Pairwise r) (test : α → Bool) {x : α} :
    x ∈ l.takeWhile test ↔
      x ∈ l ∧ test x = true ∧ ∀ a ∈ l, test a = false → r x a := by
  induction l with
  | nil => simp
  | cons y l ih =>
      rw [List.pairwise_cons] at hl
      by_cases hy : test y = true
      · rw [List.takeWhile_cons_of_pos hy, List.mem_cons, ih hl.2]
        constructor
        · intro h
          rcases h with h | ⟨hx, htest, hall⟩
          · subst h
            refine ⟨List.mem_cons_self, hy, fun a ha hfail => ?_⟩
            rcases List.mem_cons.mp ha with h | h
            · rw [h, hy] at hfail
              cases hfail
            · exact hl.1 a h
          · refine ⟨List.mem_cons_of_mem _ hx, htest, fun a ha hfail => ?_⟩
            rcases List.mem_cons.mp ha with h | h
            · rw [h, hy] at hfail
              cases hfail
            · exact hall a h hfail
        · intro h
          rcases List.mem_cons.mp h.1 with hx | hx
          · exact Or.inl hx
          · exact Or.inr ⟨hx, h.2.1, fun a ha => h.2.2 a (List.mem_cons_of_mem _ ha)⟩
      · rw [List.takeWhile_cons_of_neg hy]
        simp only [List.not_mem_nil, false_iff, not_and]
        intro hx htest hall
        rcases List.mem_cons.mp hx with h | h
        · exact hy (h ▸ htest)
        · exact hasymm y x (hl.1 x h) (hall y List.mem_cons_self (by simpa using hy))

/-- In a strictly ordered list the group of a key is the last one exactly when every other key
has a member in front of all members with that key. -/
theorem groupsBy_last_iff {r : α → α → Prop} (hasymm : ∀ a b, r a b → ¬ r b a) (hl : l.Pairwise r)
    (k : κ) :
    ((groupsBy key l).Pairwise fun g _ => g.1 ≠ k) ↔
      ∀ a ∈ l, key a ≠ k → ∃ b ∈ l, key b = key a ∧ ∀ c ∈ l, key c = k → r b c := by
  have hfront : ∀ b : α, b ∈ l.takeWhile (fun a => decide (key a ≠ k)) ↔
      b ∈ l ∧ key b ≠ k ∧ ∀ c ∈ l, key c = k → r b c := by
    intro b
    rw [mem_takeWhile_iff hasymm hl]
    simp only [decide_eq_true_eq, decide_eq_false_iff_not, ne_eq, not_not]
  rw [groupsBy, List.pairwise_map, eraseDups_last_iff]
  constructor
  · intro h a ha hne
    have hmem := h _ (List.mem_map_of_mem ha) hne
    rw [List.takeWhile_map, List.mem_map] at hmem
    obtain ⟨b, hb, heq⟩ := hmem
    obtain ⟨hin, -, hall⟩ := (hfront b).mp hb
    exact ⟨b, hin, heq, hall⟩
  · intro h j hj hne
    rw [List.mem_map] at hj
    obtain ⟨a, ha, heq⟩ := hj
    subst heq
    obtain ⟨b, hb, hsame, hall⟩ := h a ha hne
    rw [List.takeWhile_map, List.mem_map]
    exact ⟨b, (hfront b).mpr ⟨hb, hsame ▸ hne, hall⟩, hsame⟩

/-- A value is read from one member at most exactly when no two members read it. -/
theorem count_filterMap_le_one {β : Type} [DecidableEq β] {l : List α} (hl : l.Nodup)
    (f : α → Option β) (x : β) :
    (l.filterMap f).count x ≤ 1 ↔
      ∀ a ∈ l, ∀ b ∈ l, f a = some x → f b = some x → a = b := by
  induction l with
  | nil => simp
  | cons a l ih =>
      rw [List.nodup_cons] at hl
      by_cases ha : f a = some x
      · rw [List.filterMap_cons_some ha, List.count_cons_self]
        constructor
        · intro h b hb c hc hfb hfc
          have hnone : ∀ d ∈ l, f d ≠ some x := by
            intro d hd hfd
            have hpos : 0 < (l.filterMap f).count x :=
              List.count_pos_iff.mpr (List.mem_filterMap.mpr ⟨d, hd, hfd⟩)
            omega
          rcases List.mem_cons.mp hb with hb | hb
          · rcases List.mem_cons.mp hc with hc | hc
            · rw [hb, hc]
            · exact absurd hfc (hnone c hc)
          · exact absurd hfb (hnone b hb)
        · intro h
          have hzero : (l.filterMap f).count x = 0 := by
            rw [List.count_eq_zero, List.mem_filterMap]
            intro hmem
            obtain ⟨d, hd, hfd⟩ := hmem
            have heq := h a List.mem_cons_self d (List.mem_cons_of_mem _ hd) ha hfd
            exact hl.1 (heq ▸ hd)
          omega
      · have hcount : ((a :: l).filterMap f).count x = (l.filterMap f).count x := by
          cases hfa : f a with
          | none => rw [List.filterMap_cons_none hfa]
          | some y =>
              have hne : y ≠ x := fun hxy => ha (hfa.trans (congrArg some hxy))
              rw [List.filterMap_cons_some hfa, List.count_cons_of_ne hne]
        rw [hcount, ih hl.2]
        constructor
        · intro h b hb c hc hfb hfc
          rcases List.mem_cons.mp hb with hb | hb
          · exact absurd (hb ▸ hfb) ha
          · rcases List.mem_cons.mp hc with hc | hc
            · exact absurd (hc ▸ hfc) ha
            · exact h b hb c hc hfb hfc
        · intro h b hb c hc
          exact h b (List.mem_cons_of_mem _ hb) c (List.mem_cons_of_mem _ hc)

section InStep

variable {β γ : Type} {R : α → β → Prop} {xs : List α} {ys : List β}

theorem exists_mem_of_forall₂ (h : List.Forall₂ R xs ys) {x : α} (hx : x ∈ xs) :
    ∃ y ∈ ys, R x y := by
  induction h with
  | nil => cases hx
  | cons hr _ ih =>
      rcases List.mem_cons.mp hx with hx | hx
      · exact ⟨_, List.mem_cons_self, hx ▸ hr⟩
      · obtain ⟨y, hy, hxy⟩ := ih hx
        exact ⟨y, List.mem_cons_of_mem _ hy, hxy⟩

theorem exists_forall₂ (h : ∀ x ∈ xs, ∃ y, R x y) : ∃ ys, List.Forall₂ R xs ys := by
  induction xs with
  | nil => exact ⟨[], .nil⟩
  | cons x xs ih =>
      obtain ⟨y, hy⟩ := h x List.mem_cons_self
      obtain ⟨ys, hys⟩ := ih fun x hx => h x (List.mem_cons_of_mem _ hx)
      exact ⟨y :: ys, .cons hy hys⟩

/-- What tells different members apart is different along the other list. -/
theorem nodup_map_of_forall₂ {f : β → γ} (h : List.Forall₂ R xs ys) (hxs : xs.Nodup)
    (hinj : ∀ a ∈ xs, ∀ b ∈ xs, ∀ c d, R a c → R b d → f c = f d → a = b) : (ys.map f).Nodup := by
  induction h with
  | nil => exact List.nodup_nil
  | @cons a c xs ys hr hrest ih =>
      rw [List.nodup_cons] at hxs
      rw [List.map_cons, List.nodup_cons]
      constructor
      · intro hin
        obtain ⟨d, hd, heq⟩ := List.mem_map.mp hin
        obtain ⟨b, hb, hbd⟩ := exists_mem_of_forall₂ hrest.flip hd
        have hab := hinj a List.mem_cons_self b (List.mem_cons_of_mem _ hb) c d hr hbd heq.symm
        exact hxs.1 (hab ▸ hb)
      · apply ih hxs.2
        intro a ha b hb
        exact hinj a (List.mem_cons_of_mem _ ha) b (List.mem_cons_of_mem _ hb)

end InStep

end Wbme.Lib

import Mathlib.Data.Finset.Card
import Mathlib.Data.List.Perm.Basic
import Mathlib.Logic.Relation

/-! # Parent pointers

A forest is given by a parent function on keys. A place is a key or the top, and
climbing leads from a key to the place above it. The module fixes when climbing
ends, when one place lies above another, and what a recursive walk from a place
down to everything placed below it collects.
-/

namespace Wbme.Lib.Forest

section Climbing

variable {κ : Type} {parent : κ → Option κ}

/-- Climbing from the key comes to a key without a parent. -/
inductive Rooted (parent : κ → Option κ) : κ → Prop where
  | top {k : κ} (h : parent k = none) : Rooted parent k
  | under {k p : κ} (h : parent k = some p) (hp : Rooted parent p) : Rooted parent k

/-- One step up from a place. -/
def Step (parent : κ → Option κ) (a b : Option κ) : Prop := ∃ k, a = some k ∧ parent k = b

/-- The first place is the second or lies above it. -/
def Above (parent : κ → Option κ) (p h : Option κ) : Prop :=
  Relation.ReflTransGen (Step parent) h p

theorem Above.refl (p : Option κ) : Above parent p p := Relation.ReflTransGen.refl

theorem Above.trans {p q h : Option κ} (hpq : Above parent p q) (hqh : Above parent q h) :
    Above parent p h := Relation.ReflTransGen.trans hqh hpq

theorem Above.step {k : κ} {h : Option κ} (hk : Above parent (some k) h) :
    Above parent (parent k) h := Relation.ReflTransGen.tail hk ⟨k, rfl, rfl⟩

/-- A place above another is that place, or is the parent of a key above it. -/
theorem above_iff {p h : Option κ} :
    Above parent p h ↔ h = p ∨ ∃ k, parent k = p ∧ Above parent (some k) h := by
  constructor
  · intro hp
    rcases Relation.ReflTransGen.cases_tail hp with heq | ⟨c, hc, k, hk, hparent⟩
    · exact Or.inl heq.symm
    · subst hk
      exact Or.inr ⟨k, hparent, hc⟩
  · intro hp
    rcases hp with heq | ⟨k, hk, habove⟩
    · subst heq
      exact Above.refl _
    · rw [← hk]
      exact habove.step

theorem not_above_of_top {k : κ} : ¬ Above parent (some k) none := by
  intro h
  rcases Relation.ReflTransGen.cases_head h with heq | ⟨c, ⟨j, hj, -⟩, -⟩
  · cases heq
  · cases hj

theorem Rooted.above_top {k : κ} (h : Rooted parent k) : Above parent none (some k) := by
  induction h with
  | top h =>
      rw [← h]
      exact (Above.refl _).step
  | @under k p h _ ih =>
      apply ih.trans
      rw [← h]
      exact (Above.refl _).step

theorem step_unique : Relator.RightUnique (Step parent) := by
  intro a b c hb hc
  rcases hb with ⟨k, hk, hb⟩
  rcases hc with ⟨j, hj, hc⟩
  rw [hk, Option.some.injEq] at hj
  subst hj
  exact hb.symm.trans hc

/-- No key that climbs to the top comes back to itself. -/
theorem Rooted.not_above_parent {k : κ} (h : Rooted parent k) :
    ¬ Above parent (some k) (parent k) := by
  induction h with
  | top h =>
      rw [h]
      exact not_above_of_top
  | @under k p h _ ih =>
      intro hk
      rw [h] at hk
      apply ih
      rcases Relation.ReflTransGen.cases_head hk with heq | ⟨c, ⟨j, hj, hc⟩, hrest⟩
      · rw [Option.some.injEq] at heq
        subst heq
        rw [h]
        exact Above.refl _
      · rw [Option.some.injEq] at hj
        subst hj
        rw [hc]
        have hstep : Above parent (parent k) c := Above.step hrest
        rwa [h] at hstep

/-- Two keys with one parent do not lie above the same place. -/
theorem child_unique {g g' : κ} {h : Option κ} (hg : Rooted parent g) (hg' : Rooted parent g')
    (hsame : parent g = parent g') (ha : Above parent (some g) h)
    (ha' : Above parent (some g') h) : g = g' := by
  have hone : ∀ {a b : κ}, Rooted parent b → parent a = parent b →
      Above parent (some b) (some a) → a = b := by
    intro a b hb hab hba
    rcases Relation.ReflTransGen.cases_head hba with heq | ⟨c, ⟨j, hj, hc⟩, hrest⟩
    · exact Option.some.inj heq
    · rw [Option.some.injEq] at hj
      subst hj
      rw [← hc, hab] at hrest
      exact absurd hrest hb.not_above_parent
  rcases Relation.ReflTransGen.total_of_right_unique step_unique ha ha' with hle | hle
  · exact hone hg' hsame hle
  · exact (hone hg hsame.symm hle).symm

/-- The keys on the way from a place down to another. -/
inductive Descent (parent : κ → Option κ) : Option κ → List κ → Option κ → Prop where
  | here (p : Option κ) : Descent parent p [] p
  | down {g : κ} {path : List κ} {h : Option κ} (hpath : Descent parent (some g) path h) :
      Descent parent (parent g) (g :: path) h

end Climbing

section Climb

variable {κ : Type} [DecidableEq κ] {parent : κ → Option κ}

/-- Climb from a place and keep the keys passed: `true` at the top, `false` at a key that was
passed before. Without fuel the climb is still under way. -/
def climb (parent : κ → Option κ) : Nat → List κ → Option κ → Option Bool
  | 0, _, _ => none
  | _ + 1, _, none => some true
  | fuel + 1, passed, some k =>
      if k ∈ passed then some false else climb parent fuel (k :: passed) (parent k)

attribute [grind =] climb

/-- A climb that has ended stays as it is with more fuel. -/
theorem climb_mono {fuel more : Nat} {passed : List κ} {p : Option κ} {ending : Bool}
    (h : climb parent fuel passed p = some ending) (hmore : fuel ≤ more) :
    climb parent more passed p = some ending := by
  induction fuel generalizing more passed p with
  | zero => cases h
  | succ fuel ih =>
      cases more with
      | zero => omega
      | succ more =>
          cases p with
          | none => exact h
          | some k =>
              unfold climb at h ⊢
              by_cases hk : k ∈ passed
              · rw [if_pos hk] at h ⊢
                exact h
              · rw [if_neg hk] at h ⊢
                exact ih h (Nat.le_of_succ_le_succ hmore)

/-- No key is passed twice, so a climb ends when only some keys have a parent. -/
theorem climb_isSome {keys : List κ} (hkeys : ∀ k, k ∉ keys → parent k = none) (fuel : Nat)
    (passed : List κ) (hnodup : passed.Nodup) (hsub : ∀ k ∈ passed, k ∈ keys)
    (hfuel : keys.length + 2 ≤ fuel + passed.length) (p : Option κ) :
    (climb parent fuel passed p).isSome := by
  have hlength : passed.length ≤ keys.length := (hnodup.subperm hsub).length_le
  induction fuel generalizing passed p with
  | zero => omega
  | succ fuel ih =>
      cases p with
      | none => rfl
      | some k =>
          unfold climb
          by_cases hk : k ∈ passed
          · rw [if_pos hk]
            rfl
          · rw [if_neg hk]
            by_cases hmem : k ∈ keys
            · have hnodup' : (k :: passed).Nodup := List.nodup_cons.mpr ⟨hk, hnodup⟩
              have hsub' : ∀ j ∈ k :: passed, j ∈ keys := by
                intro j hj
                rcases List.mem_cons.mp hj with heq | hj
                · exact heq ▸ hmem
                · exact hsub j hj
              apply ih (k :: passed) hnodup' hsub' _ (parent k)
              · exact (hnodup'.subperm hsub').length_le
              · rw [List.length_cons]
                omega
            · rw [hkeys k hmem]
              cases fuel with
              | zero => omega
              | succ fuel => rfl

theorem rooted_of_climb {fuel : Nat} {passed : List κ} {p : Option κ}
    (h : climb parent fuel passed p = some true) : ∀ k, p = some k → Rooted parent k := by
  induction fuel generalizing passed p with
  | zero => cases h
  | succ fuel ih =>
      intro k hp
      subst hp
      unfold climb at h
      by_cases hk : k ∈ passed
      · rw [if_pos hk] at h
        cases h
      · rw [if_neg hk] at h
        cases hparent : parent k with
        | none => exact Rooted.top hparent
        | some q => exact Rooted.under hparent (ih h q hparent)

/-- A climb that comes back has found a key above itself. -/
theorem cycle_of_climb {fuel : Nat} {passed : List κ} {p : Option κ}
    (hpassed : ∀ k ∈ passed, Above parent p (parent k))
    (h : climb parent fuel passed p = some false) : ∃ k, Above parent (some k) (parent k) := by
  induction fuel generalizing passed p with
  | zero => cases h
  | succ fuel ih =>
      cases p with
      | none => cases h
      | some k =>
          unfold climb at h
          by_cases hk : k ∈ passed
          · exact ⟨k, hpassed k hk⟩
          · rw [if_neg hk] at h
            apply ih _ h
            intro j hj
            rcases List.mem_cons.mp hj with heq | hj
            · rw [heq]
              exact Above.refl _
            · exact (hpassed j hj).step

/-- No key lies above itself. -/
def Acyclic (parent : κ → Option κ) : Prop := ∀ k, ¬ Above parent (some k) (parent k)

/-- Climbs from all keys come to the top exactly when there is no cycle. -/
theorem climb_all_iff {keys : List κ} (hkeys : ∀ k, k ∉ keys → parent k = none) {fuel : Nat}
    (hfuel : keys.length + 1 ≤ fuel) :
    (∀ k ∈ keys, climb parent fuel [k] (parent k) = some true) ↔ Acyclic parent := by
  constructor
  · intro hall k
    by_cases hk : k ∈ keys
    · cases hparent : parent k with
      | none => exact not_above_of_top
      | some p =>
          have hrooted := Rooted.under hparent (rooted_of_climb (hall k hk) p hparent)
          rw [← hparent]
          exact hrooted.not_above_parent
    · rw [hkeys k hk]
      exact not_above_of_top
  · intro hacyclic k hk
    have hsome := climb_isSome hkeys fuel [k] (List.nodup_singleton k)
      (fun j hj => List.mem_singleton.mp hj ▸ hk) (by simpa using hfuel) (parent k)
    rcases Option.isSome_iff_exists.mp hsome with ⟨ending, hending⟩
    cases ending with
    | true => exact hending
    | false =>
        have hfound := cycle_of_climb (fun j hj => by
          rw [List.mem_singleton.mp hj]
          exact Above.refl _) hending
        rcases hfound with ⟨j, hj⟩
        exact absurd hj (hacyclic j)

omit [DecidableEq κ] in
/-- A chain of parents leads from a key to each key above its parent. -/
theorem above_iff_transGen {k j : κ} :
    Above parent (some j) (parent k) ↔ Relation.TransGen (fun a b => parent a = some b) k j := by
  constructor
  · intro h
    generalize hp : parent k = p at h
    induction h using Relation.ReflTransGen.head_induction_on generalizing k with
    | refl => exact Relation.TransGen.single hp
    | head hstep _ ih =>
        rcases hstep with ⟨i, hi, hparent⟩
        exact Relation.TransGen.head (hp.trans hi) (ih hparent)
  · intro h
    induction h using Relation.TransGen.head_induction_on with
    | single h =>
        rw [h]
        exact Above.refl _
    | head h _ ih =>
        rw [h]
        exact ih.trans (Above.refl _).step

omit [DecidableEq κ] in
theorem acyclic_of_rooted (h : ∀ k, Rooted parent k) : Acyclic parent :=
  fun k => (h k).not_above_parent

end Climb

/-! ## Founded lists

Keys are resolved one after another, each under a parent resolved before it.
-/

section Founded

variable {κ : Type} [DecidableEq κ]

/-- The parent a list of pairs gives to a key; the head of the list is its newest pair. -/
def parentIn (pairs : List (κ × Option κ)) (k : κ) : Option κ :=
  (pairs.find? (fun pair => pair.1 = k)).bind (·.2)

/-- Every key is new to the pairs behind it, and every parent is among their keys. -/
def Founded : List (κ × Option κ) → Prop
  | [] => True
  | (k, p) :: rest =>
      k ∉ rest.map (·.1) ∧ (∀ q, p = some q → q ∈ rest.map (·.1)) ∧ Founded rest

@[simp] theorem parentIn_cons_self (k : κ) (p : Option κ) (rest : List (κ × Option κ)) :
    parentIn ((k, p) :: rest) k = p := by simp [parentIn]

theorem parentIn_cons_ne {k j : κ} (p : Option κ) (rest : List (κ × Option κ)) (h : j ≠ k) :
    parentIn ((k, p) :: rest) j = parentIn rest j := by
  simp [parentIn, Ne.symm h]

theorem Founded.parent_mem {pairs : List (κ × Option κ)} (h : Founded pairs) {k q : κ}
    (hq : parentIn pairs k = some q) : q ∈ pairs.map (·.1) := by
  induction pairs with
  | nil => simp [parentIn] at hq
  | cons pair rest ih =>
      rcases pair with ⟨j, p⟩
      by_cases hj : k = j
      · subst hj
        rw [parentIn_cons_self] at hq
        exact List.mem_cons_of_mem _ (h.2.1 q hq)
      · rw [parentIn_cons_ne _ _ hj] at hq
        exact List.mem_cons_of_mem _ (ih h.2.2 hq)

/-- Climbing along a founded list ends: each step leads further back. -/
theorem Founded.rooted {pairs : List (κ × Option κ)} (h : Founded pairs) {k : κ}
    (hk : k ∈ pairs.map (·.1)) : Rooted (parentIn pairs) k := by
  induction pairs generalizing k with
  | nil => simp at hk
  | cons pair rest ih =>
      rcases pair with ⟨j, p⟩
      have hlift : ∀ i ∈ rest.map (·.1), Rooted (parentIn ((j, p) :: rest)) i := by
        intro i hi
        have hrest := ih h.2.2 hi
        clear hk
        induction hrest with
        | @top i hi' =>
            have hne : i ≠ j := fun heq => h.1 (heq ▸ hi)
            exact Rooted.top ((parentIn_cons_ne _ _ hne).trans hi')
        | @under i q hi' _ ihq =>
            have hne : i ≠ j := fun heq => h.1 (heq ▸ hi)
            exact Rooted.under ((parentIn_cons_ne _ _ hne).trans hi')
              (ihq (Founded.parent_mem h.2.2 hi'))
      by_cases hj : k = j
      · subst hj
        cases p with
        | none => exact Rooted.top (parentIn_cons_self _ _ _)
        | some q => exact Rooted.under (parentIn_cons_self _ _ _) (hlift q (h.2.1 q rfl))
      · apply hlift
        rcases List.mem_cons.mp hk with heq | hmem
        · exact absurd heq hj
        · exact hmem

end Founded

section Gather

variable {κ ι : Type} [DecidableEq κ]

/-- Walk down from a place: first what is placed there, then what lies below each of its keys. -/
def gather (parent : κ → Option κ) (groups : List κ) (home : ι → Option κ) (items : List ι) :
    Nat → Option κ → List ι
  | 0, _ => []
  | fuel + 1, p =>
      items.filter (fun i => home i = p) ++
        (groups.filter (fun g => parent g = p)).flatMap fun g =>
          gather parent groups home items fuel (some g)

omit [DecidableEq κ] in
/-- Filters by predicates of which at most one holds, put together. -/
theorem filter_append_flatMap_perm {items : List ι} {ks : List κ} (hks : ks.Nodup) (Q₀ : ι → Bool)
    (Q : κ → ι → Bool) (h₀ : ∀ i ∈ items, Q₀ i = true → ∀ k ∈ ks, Q k i = false)
    (hQ : ∀ i ∈ items, ∀ k ∈ ks, ∀ k' ∈ ks, Q k i = true → Q k' i = true → k = k') :
    (items.filter Q₀ ++ ks.flatMap fun k => items.filter (Q k)).Perm
      (items.filter fun i => Q₀ i || ks.any (Q · i)) := by
  induction ks generalizing Q₀ with
  | nil => simp
  | cons k ks ih =>
      have hsplit := List.filter_append_perm Q₀ (items.filter fun i => Q₀ i || Q k i)
      have hleft : (items.filter fun i => Q₀ i || Q k i).filter Q₀ = items.filter Q₀ := by
        rw [List.filter_filter]
        apply List.filter_congr
        intro i _
        cases Q₀ i <;> simp
      have hright : (items.filter fun i => Q₀ i || Q k i).filter (fun i => !Q₀ i) =
          items.filter (Q k) := by
        rw [List.filter_filter]
        apply List.filter_congr
        intro i hi
        cases hi₀ : Q₀ i with
        | true => simp [h₀ i hi hi₀ k List.mem_cons_self]
        | false => simp
      rw [hleft, hright] at hsplit
      have hnodup := List.nodup_cons.mp hks
      have hrest := ih hnodup.2 (fun i => Q₀ i || Q k i)
        (fun i hi hor j hj => by
          rw [Bool.or_eq_true] at hor
          rcases hor with hi₀ | hik
          · exact h₀ i hi hi₀ j (List.mem_cons_of_mem _ hj)
          · by_contra hQj
            rw [Bool.not_eq_false] at hQj
            have heq := hQ i hi k List.mem_cons_self j (List.mem_cons_of_mem _ hj) hik hQj
            exact hnodup.1 (heq ▸ hj))
        (fun i hi j hj j' hj' =>
          hQ i hi j (List.mem_cons_of_mem _ hj) j' (List.mem_cons_of_mem _ hj'))
      rw [List.flatMap_cons, ← List.append_assoc]
      refine (hsplit.append_right _).trans (hrest.trans ?_)
      simp only [List.any_cons, Bool.or_assoc]
      exact List.Perm.refl _

variable {parent : κ → Option κ} {groups : List κ} {home : ι → Option κ} {items : List ι}

open Classical in
/-- The keys strictly below a place. -/
noncomputable def below (parent : κ → Option κ) (groups : List κ) (p : Option κ) : Finset κ :=
  {g ∈ groups.toFinset | Above parent p (some g) ∧ some g ≠ p}

theorem card_below_child (hroot : ∀ g ∈ groups, Rooted parent g) {g : κ} (hg : g ∈ groups) :
    (below parent groups (some g)).card < (below parent groups (parent g)).card := by
  apply Finset.card_lt_card
  rw [Finset.ssubset_iff_of_subset]
  · refine ⟨g, ?_, by simp [below]⟩
    simp only [below, Finset.mem_filter, List.mem_toFinset]
    refine ⟨hg, (Above.refl _).step, fun heq => ?_⟩
    have hself := (hroot g hg).not_above_parent
    rw [← heq] at hself
    exact hself (Above.refl _)
  · intro k hk
    simp only [below, Finset.mem_filter, List.mem_toFinset] at hk ⊢
    refine ⟨hk.1, ((Above.refl _).step).trans hk.2.1, fun heq => ?_⟩
    have habove := hk.2.1
    rw [heq] at habove
    exact (hroot g hg).not_above_parent habove

theorem card_below_le (p : Option κ) : (below parent groups p).card ≤ groups.length := by
  classical
  exact (Finset.card_filter_le _ _).trans (List.toFinset_card_le _)

open Classical in
/-- The walk collects everything placed below, each thing once. -/
theorem gather_perm_filter (hnodup : groups.Nodup) (hroot : ∀ g ∈ groups, Rooted parent g)
    (hcover : ∀ i ∈ items, ∀ g, Above parent (some g) (home i) → g ∈ groups)
    (fuel : Nat) (p : Option κ) (hfuel : (below parent groups p).card < fuel) :
    (gather parent groups home items fuel p).Perm
      (items.filter fun i => Above parent p (home i)) := by
  induction fuel generalizing p with
  | zero => exact absurd hfuel (Nat.not_lt_zero _)
  | succ fuel ih =>
      have hchildren : ((groups.filter fun g => parent g = p).flatMap fun g =>
          gather parent groups home items fuel (some g)).Perm
          ((groups.filter fun g => parent g = p).flatMap fun g =>
            items.filter fun i => Above parent (some g) (home i)) := by
        apply List.Perm.flatMap_left
        intro g hg
        have hg' := List.mem_filter.mp hg
        have hp : parent g = p := by simpa using hg'.2
        apply ih
        have hlt := card_below_child hroot hg'.1
        rw [hp] at hlt
        omega
      refine (hchildren.append_left _).trans
        ((filter_append_flatMap_perm (hnodup.filter _) (fun i => decide (home i = p))
          (fun g i => decide (Above parent (some g) (home i))) ?_ ?_).trans ?_)
      · intro i _ hi g hg
        have hg' := List.mem_filter.mp hg
        have hp : parent g = p := by simpa using hg'.2
        rw [decide_eq_false_iff_not, of_decide_eq_true hi, ← hp]
        exact (hroot g hg'.1).not_above_parent
      · intro i _ g hg g' hg' hab hab'
        have hg := List.mem_filter.mp hg
        have hg' := List.mem_filter.mp hg'
        have hsame : parent g = parent g' := by
          have h₁ : parent g = p := by simpa using hg.2
          have h₂ : parent g' = p := by simpa using hg'.2
          rw [h₁, h₂]
        exact child_unique (hroot g hg.1) (hroot g' hg'.1) hsame (of_decide_eq_true hab)
          (of_decide_eq_true hab')
      · apply List.Perm.of_eq
        apply List.filter_congr
        intro i hi
        rw [Bool.eq_iff_iff, decide_eq_true_iff, Bool.or_eq_true, decide_eq_true_iff,
          List.any_eq_true, above_iff (p := p)]
        constructor
        · intro h
          rcases h with h | ⟨g, hg, hab⟩
          · exact Or.inl h
          · exact Or.inr ⟨g, by simpa using (List.mem_filter.mp hg).2, of_decide_eq_true hab⟩
        · intro h
          rcases h with h | ⟨g, hg, hab⟩
          · exact Or.inl h
          · exact Or.inr ⟨g, List.mem_filter.mpr ⟨hcover i hi g hab, by simpa using hg⟩,
              decide_eq_true hab⟩

/-- From the top the walk collects everything. -/
theorem gather_perm (hnodup : groups.Nodup) (hroot : ∀ g ∈ groups, Rooted parent g)
    (hcover : ∀ i ∈ items, ∀ g, Above parent (some g) (home i) → g ∈ groups) (fuel : Nat)
    (hfuel : groups.length < fuel) : (gather parent groups home items fuel none).Perm items := by
  classical
  have hperm := gather_perm_filter hnodup hroot hcover fuel none
    ((card_below_le none).trans_lt hfuel)
  rwa [List.filter_eq_self.mpr] at hperm
  intro i hi
  rw [decide_eq_true_iff]
  cases hh : home i with
  | none => exact Above.refl _
  | some g => exact (hroot g (hcover i hi g (hh ▸ Above.refl _))).above_top

end Gather

end Wbme.Lib.Forest

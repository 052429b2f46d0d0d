import Mathlib.Data.List.Pairwise
import Mathlib.Data.List.Sort
import Mathlib.Data.List.Zip
import Mathlib.Data.Nat.Basic

/-! # Comparators

A comparator says of two elements which one goes first. Comparators are put together key by
key, turned around, and extended to missing values; consistent ones stay consistent. A sort
that looks at the places of the elements when they tie keeps their order.
-/

namespace Wbme.Lib

open Std (TransCmp OrientedCmp)

variable {α β : Type}

/-! ## Building comparators -/

/-- The first comparator that does not tie decides. -/
def chain : List (α → α → Ordering) → α → α → Ordering
  | [], _, _ => .eq
  | key :: keys, a, b => (key a b).then (chain keys a b)

/-- Missing values go last. -/
def nullsLast (cmp : α → α → Ordering) : Option α → Option α → Ordering
  | none, none => .eq
  | none, some _ => .gt
  | some _, none => .lt
  | some a, some b => cmp a b

/-- A comparator, or the same one turned around. -/
def turned (descending : Bool) (cmp : α → α → Ordering) (a b : α) : Ordering :=
  if descending then (cmp a b).swap else cmp a b

section Consistent

theorem transCmp_of {cmp : α → α → Ordering} (hswap : ∀ a b, cmp a b = (cmp b a).swap)
    (htrans : ∀ a b c, cmp a b ≠ .gt → cmp b c ≠ .gt → cmp a c ≠ .gt) : TransCmp cmp where
  eq_swap {a b} := hswap a b
  isLE_trans {a b c} hab hbc := by
    rw [Ordering.isLE_iff_ne_gt] at hab hbc ⊢
    exact htrans a b c hab hbc

theorem ne_gt_trans (cmp : α → α → Ordering) [TransCmp cmp] {a b c : α} (hab : cmp a b ≠ .gt)
    (hbc : cmp b c ≠ .gt) : cmp a c ≠ .gt := by
  simp only [ne_eq, ← Ordering.isLE_iff_ne_gt] at hab hbc ⊢
  exact TransCmp.isLE_trans hab hbc

instance transCmp_turned (descending : Bool) (cmp : α → α → Ordering) [TransCmp cmp] :
    TransCmp (turned descending cmp) := by
  cases descending with
  | false => exact inferInstanceAs (TransCmp cmp)
  | true =>
      have hsame : turned true cmp = fun a b => cmp b a := by
        funext a b
        exact (OrientedCmp.eq_swap).symm
      rw [hsame]
      infer_instance

instance transCmp_nullsLast (cmp : α → α → Ordering) [TransCmp cmp] :
    TransCmp (nullsLast cmp) := by
  apply transCmp_of
  · intro a b
    cases a with
    | none => cases b <;> rfl
    | some a =>
        cases b with
        | none => rfl
        | some b =>
            have hswap : cmp a b = (cmp b a).swap := OrientedCmp.eq_swap
            exact hswap
  · intro a b c hab hbc
    cases c with
    | none => cases a <;> simp [nullsLast]
    | some c =>
        cases b with
        | none => exact absurd rfl hbc
        | some b =>
            cases a with
            | none => exact absurd rfl hab
            | some a => exact ne_gt_trans cmp hab hbc

/-- Elements are compared by what a function reads from them. -/
theorem transCmp_on (cmp : β → β → Ordering) [TransCmp cmp] (f : α → β) :
    TransCmp fun a b => cmp (f a) (f b) where
  eq_swap := OrientedCmp.eq_swap
  isLE_trans := TransCmp.isLE_trans

theorem transCmp_then (first second : α → α → Ordering) [TransCmp first] [TransCmp second] :
    TransCmp fun a b => (first a b).then (second a b) :=
  inferInstanceAs (TransCmp (compareLex first second))

theorem transCmp_chain {keys : List (α → α → Ordering)} (h : ∀ key ∈ keys, TransCmp key) :
    TransCmp (chain keys) := by
  induction keys with
  | nil =>
      apply transCmp_of
      · intro a b
        rfl
      · intro a b c _ _
        simp [chain]
  | cons key keys ih =>
      have hkey := h key List.mem_cons_self
      have hkeys := ih fun other hother => h other (List.mem_cons_of_mem _ hother)
      exact transCmp_then key (chain keys)

end Consistent

/-! ## A sort that keeps the order of ties -/

/-- A consistent comparator sorts. -/
theorem insertionSort_pairwise (cmp : α → α → Ordering) [TransCmp cmp] (l : List α) :
    (l.insertionSort fun a b => cmp a b ≠ .gt).Pairwise fun a b => cmp a b ≠ .gt := by
  have htotal : Std.Total fun a b : α => cmp a b ≠ .gt := by
    constructor
    intro a b
    have hswap : cmp a b = (cmp b a).swap := OrientedCmp.eq_swap
    rw [hswap]
    cases cmp b a <;> simp
  have htrans : IsTrans α fun a b => cmp a b ≠ .gt := by
    constructor
    intro a b c hab hbc
    exact ne_gt_trans cmp hab hbc
  exact List.pairwise_insertionSort _ _

/-- The comparator of elements with their places: ties are decided by the places. -/
def placed (cmp : α → α → Ordering) (a b : α × Nat) : Ordering :=
  (cmp a.1 b.1).then (compare a.2 b.2)

/-- Sort the elements with their places, then forget the places. -/
def sortPlaces (cmp : α → α → Ordering) (l : List α) : List α :=
  ((l.zipIdx).insertionSort fun a b => placed cmp a b ≠ .gt).map (·.1)

/-- Of two members of a pairwise related list one stands in front. -/
theorem related_of_pairwise {r : α → α → Prop} {l : List α} (h : l.Pairwise r) {a b : α}
    (ha : a ∈ l) (hb : b ∈ l) (hne : a ≠ b) : r a b ∨ r b a := by
  have hsymm : Std.Symm fun x y => r x y ∨ r y x := ⟨fun _ _ hxy => hxy.symm⟩
  exact (h.imp fun hxy => Or.inl hxy : l.Pairwise fun x y => r x y ∨ r y x).forall ha hb hne

section Sorting

variable (cmp : α → α → Ordering) (l : List α)

theorem sortPlaces_perm : (sortPlaces cmp l).Perm l := by
  have hperm := (List.perm_insertionSort (fun a b => placed cmp a b ≠ .gt) l.zipIdx).map (·.1)
  rwa [List.zipIdx_map_fst] at hperm

variable [TransCmp cmp]

instance transCmp_placed : TransCmp (placed cmp) := by
  have hfirst : TransCmp fun a b : α × Nat => cmp a.1 b.1 := transCmp_on cmp Prod.fst
  have hplace : TransCmp fun a b : α × Nat => compare a.2 b.2 := transCmp_on compare Prod.snd
  exact transCmp_then _ _

theorem pairwise_placed :
    ((l.zipIdx).insertionSort fun a b => placed cmp a b ≠ .gt).Pairwise
      fun a b => placed cmp a b ≠ .gt := insertionSort_pairwise (placed cmp) l.zipIdx

theorem sortPlaces_pairwise : (sortPlaces cmp l).Pairwise fun a b => cmp a b ≠ .gt := by
  unfold sortPlaces
  rw [List.pairwise_map]
  apply (pairwise_placed cmp l).imp
  intro a b hab hgt
  apply hab
  rw [placed, hgt]
  rfl

/-- Elements that tie with a given one stand in the result as they stand in the list. -/
theorem sortPlaces_ties (x : α) :
    (sortPlaces cmp l).filter (fun y => cmp x y = .eq) = l.filter fun y => cmp x y = .eq := by
  let tied : α × Nat → Bool := fun a => cmp x a.1 = .eq
  have hsorted : (((l.zipIdx).insertionSort fun a b => placed cmp a b ≠ .gt).filter
      tied).Pairwise fun a b => a.2 ≤ b.2 := by
    have hpair := (pairwise_placed cmp l).filter tied
    refine hpair.imp_of_mem ?_
    intro a b ha hb hab
    have hxa : cmp x a.1 = .eq := of_decide_eq_true (List.mem_filter.mp ha).2
    have hxb : cmp x b.1 = .eq := of_decide_eq_true (List.mem_filter.mp hb).2
    have hab' : cmp a.1 b.1 = .eq := TransCmp.eq_trans (OrientedCmp.eq_symm hxa) hxb
    by_contra hle
    apply hab
    rw [placed, hab', Ordering.eq_then]
    exact Nat.compare_eq_gt.mpr (not_le.mp hle)
  have hplaces : ((l.zipIdx).filter tied).Pairwise fun a b => a.2 < b.2 := by
    apply List.Pairwise.filter
    have hsecond : ((l.zipIdx).map (·.2)).Pairwise (· < ·) := by
      rw [List.zipIdx_map_snd]
      exact List.pairwise_lt_range'
    exact List.pairwise_map.mp hsecond
  have hsame : ((l.zipIdx).insertionSort fun a b => placed cmp a b ≠ .gt).filter tied =
      (l.zipIdx).filter tied := by
    apply List.Perm.eq_of_pairwise _ hsorted (hplaces.imp Nat.le_of_lt)
      ((List.perm_insertionSort _ _).filter tied)
    intro a b ha hb hab hba
    have hmem : a ∈ l.zipIdx := by
      have hin := (List.mem_filter.mp ha).1
      exact (List.mem_insertionSort _).mp hin
    have hplace : a.2 = b.2 := Nat.le_antisymm hab hba
    have hget := List.mem_zipIdx_iff_getElem?.mp hmem
    have hget' := List.mem_zipIdx_iff_getElem?.mp (List.mem_filter.mp hb).1
    rw [hplace, hget', Option.some.injEq] at hget
    exact Prod.ext hget.symm hplace
  have hmap : ∀ pairs : List (α × Nat), (pairs.map (·.1)).filter (fun y => cmp x y = .eq) =
      (pairs.filter tied).map (·.1) := fun pairs => List.filter_map
  unfold sortPlaces
  rw [hmap, hsame, ← hmap, List.zipIdx_map_fst]

end Sorting

end Wbme.Lib

import Mathlib.Data.List.Sort

/-! # What a stable sort forgets

A stable sort forgets the order of a list where no two elements tie. Where two different ones
do, some order of the list is told by its sort.
-/

namespace Wbme.Lib

variable {α β : Type} {r : β → β → Prop} [DecidableRel r]

/-- Elements that all tie keep their order. -/
theorem filter_insertionSort (tied : β → Bool) (h : ∀ a b, tied a = true → tied b = true → r a b)
    (l : List β) : (l.insertionSort r).filter tied = l.filter tied := by
  have hpair : (l.filter tied).Pairwise r := by
    refine List.pairwise_of_forall_mem_list fun a ha b hb => ?_
    exact h a b (List.mem_filter.mp ha).2 (List.mem_filter.mp hb).2
  have hsub : (l.filter tied).Sublist (l.insertionSort r) :=
    List.sublist_insertionSort hpair List.filter_sublist
  have hfiltered : (l.filter tied).Sublist ((l.insertionSort r).filter tied) := by
    have hsame := hsub.filter tied
    rw [List.filter_filter] at hsame
    simpa using hsame
  have hperm : ((l.insertionSort r).filter tied).Perm (l.filter tied) :=
    (List.perm_insertionSort r l).filter tied
  exact (hfiltered.eq_of_length hperm.length_eq.symm).symm

/-- Without ties the sort of a list does not depend on its order. -/
theorem insertionSort_congr [Std.Total r] [IsTrans β r] {l m : List β} (hperm : l.Perm m)
    (hties : ∀ a ∈ l, ∀ b ∈ l, r a b → r b a → a = b) : l.insertionSort r = m.insertionSort r := by
  refine List.Perm.eq_of_pairwise ?_ (List.pairwise_insertionSort r l)
    (List.pairwise_insertionSort r m)
    (((List.perm_insertionSort r l).trans hperm).trans (List.perm_insertionSort r m).symm)
  intro a b ha hb hab hba
  have hma : a ∈ l := (List.mem_insertionSort r).mp ha
  have hmb : b ∈ l := hperm.mem_iff.mpr ((List.mem_insertionSort r).mp hb)
  exact hties a hma b hmb hab hba

/-- Two different elements of a class can be put in another order. -/
theorem exists_other_order (f : α → β) (tied : β → Bool) {l : List α} {x y : α} (hx : x ∈ l)
    (hy : y ∈ l) (htx : tied (f x) = true) (hty : tied (f y) = true) (hne : f x ≠ f y) :
    ∃ m, l.Perm m ∧ (m.map f).filter tied ≠ (l.map f).filter tied := by
  have hfront : ∀ z ∈ l, tied (f z) = true → ((l.map f).filter tied).head? ≠ some (f z) →
      ∃ m, l.Perm m ∧ (m.map f).filter tied ≠ (l.map f).filter tied := by
    intro z hz htz hhead
    obtain ⟨before, after, hsplit⟩ := List.append_of_mem hz
    refine ⟨z :: (before ++ after), ?_, fun heq => hhead ?_⟩
    · rw [hsplit]
      exact List.perm_middle
    · rw [← heq, List.map_cons, List.filter_cons_of_pos htz, List.head?_cons]
  by_cases hhead : ((l.map f).filter tied).head? = some (f x)
  · exact hfront y hy hty fun hother => hne (by
      rw [hhead] at hother
      exact Option.some.inj hother)
  · exact hfront x hx htx hhead

end Wbme.Lib

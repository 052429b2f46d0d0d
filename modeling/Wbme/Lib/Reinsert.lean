import Mathlib.Data.List.InsertIdx
import Mathlib.Data.List.Nodup

/-! # Moving an element of a list

An element is taken out of a list and put in at an index that was counted while it was still
there. Elements are told apart by a key.
-/

namespace Wbme.Lib

variable {α κ : Type} [DecidableEq κ]

/-- A list without the elements of a key. -/
def without (key : α → κ) (k : κ) (l : List α) : List α := l.filter fun x => key x ≠ k

theorem without_append (key : α → κ) (k : κ) (l m : List α) :
    without key k (l ++ m) = without key k l ++ without key k m := List.filter_append l m

variable {key : α → κ} {l : List α}

theorem without_of_notMem {k : κ} (h : k ∉ l.map key) : without key k l = l := by
  rw [without, List.filter_eq_self]
  intro x hx
  have hne : key x ≠ k := fun heq => h (heq ▸ List.mem_map_of_mem hx)
  simpa using hne

variable {i : Nat}

/-- Where keys are distinct, taking out the element at an index takes out its key. -/
theorem eraseIdx_eq_without (hnodup : (l.map key).Nodup) {x : α} (h : l[i]? = some x) :
    l.eraseIdx i = without key (key x) l := by
  obtain ⟨hlt, hx⟩ := List.getElem?_eq_some_iff.mp h
  have hsplit : l = l.take i ++ x :: l.drop (i + 1) := by
    rw [← hx, ← List.drop_eq_getElem_cons hlt, List.take_append_drop]
  have hkeys := hnodup
  rw [hsplit, List.map_append, List.map_cons, List.nodup_middle, List.nodup_cons,
    List.mem_append, not_or] at hkeys
  have hbefore := without_of_notMem hkeys.1.1
  have hafter := without_of_notMem hkeys.1.2
  have hself : without key (key x) [x] = [] := by simp [without]
  rw [List.eraseIdx_eq_take_drop_succ]
  conv => rhs; rw [hsplit, ← List.singleton_append, without_append, without_append, hself]
  rw [hbefore, hafter, List.nil_append]

theorem insertIdx_middle (l m : List α) (y : α) : (l ++ m).insertIdx l.length y = l ++ y :: m := by
  induction l with
  | nil => rfl
  | cons x l ih => rw [List.cons_append, List.length_cons, List.insertIdx_succ_cons, ih]; rfl

/-- What stands before an index, less the element itself. -/
theorem length_without_take (hnodup : (l.map key).Nodup) {x : α} (h : l[i]? = some x)
    (index : Nat) :
    (without key (key x) (l.take index)).length =
      min (if i < index then index - 1 else index) (l.length - 1) := by
  have hlt : i < l.length := (List.getElem?_eq_some_iff.mp h).1
  have htaken : ((l.take index).map key).Nodup := by
    rw [List.map_take]
    exact hnodup.sublist (List.take_sublist index _)
  by_cases hi : i < index
  · have hget : (l.take index)[i]? = some x := by rw [List.getElem?_take, if_pos hi, h]
    rw [← eraseIdx_eq_without htaken hget, List.length_eraseIdx_of_lt (by simp; omega),
      List.length_take, if_pos hi]
    omega
  · have hnot : key x ∉ (l.take index).map key := by
      intro hmem
      obtain ⟨y, hy, hkey⟩ := List.mem_map.mp hmem
      obtain ⟨j, hj⟩ := List.mem_iff_getElem?.mp hy
      rw [List.getElem?_take] at hj
      split at hj
      · rename_i hjlt
        have hij : (l.map key)[j]? = (l.map key)[i]? := by
          rw [List.getElem?_map, List.getElem?_map, hj, h, Option.map_some, Option.map_some, hkey]
        have heq := (List.getElem?_inj (by simpa using hlt) hnodup).mp hij.symm
        omega
      · cases hj
    rw [without_of_notMem hnot, List.length_take, if_neg hi]
    omega

/-- An element taken out and put in again stands behind all others that were before the index,
and before all others. -/
theorem reinsert (hnodup : (l.map key).Nodup) {x : α} (h : l[i]? = some x) (index : Nat) (y : α) :
    (l.eraseIdx i).insertIdx (min (if i < index then index - 1 else index) (l.eraseIdx i).length) y =
      without key (key x) (l.take index) ++ y :: without key (key x) (l.drop index) := by
  have hlt : i < l.length := (List.getElem?_eq_some_iff.mp h).1
  have hsplit : l.eraseIdx i =
      without key (key x) (l.take index) ++ without key (key x) (l.drop index) := by
    rw [eraseIdx_eq_without hnodup h, ← without_append, List.take_append_drop]
  rw [List.length_eraseIdx_of_lt hlt, ← length_without_take hnodup h index, hsplit]
  exact insertIdx_middle _ _ y

/-- An element that was not there stands at the index. -/
theorem insert_new {k : κ} (h : k ∉ l.map key) (index : Nat) (y : α) :
    l.insertIdx (min index l.length) y =
      without key k (l.take index) ++ y :: without key k (l.drop index) := by
  have htake : k ∉ (l.take index).map key := fun hmem =>
    h (by
      rw [List.map_take] at hmem
      exact List.mem_of_mem_take hmem)
  have hdrop : k ∉ (l.drop index).map key := fun hmem =>
    h (by
      rw [List.map_drop] at hmem
      exact List.mem_of_mem_drop hmem)
  have hlen : (l.take index).length = min index l.length := List.length_take
  rw [without_of_notMem htake, without_of_notMem hdrop, ← hlen]
  have hmiddle := insertIdx_middle (l.take index) (l.drop index) y
  rw [List.take_append_drop] at hmiddle
  exact hmiddle

end Wbme.Lib

import Wbme.Backstage.UserLifecycle
import Wbme.IdempotencyAmid

/-! # Locked accounts

What a locked account is worth to a transaction: its row stays as it was read. A transaction
is followed by what its draft changes of the accounts, each change behind a lock.
-/

namespace Wbme.Backstage

open Lib

abbrev BackstageDraft := Draft BackstageStore BackstageLock

abbrev BackstageRely := List (Hold BackstageLock) → BackstageStore → BackstageStore → Prop

/-- A locked account stays as it is. -/
def FramesUsers (R : BackstageRely) : Prop :=
  ∀ H s s' id, R H s s' → .lock (.user id) ∈ H → s'.users.find? id = s.users.find? id

/-- The draft changes an account behind its lock only, and only if the account satisfies `P`. -/
def TouchesUsers (P : Nat → Option User → Prop) (d : BackstageDraft) (s : BackstageStore) : Prop :=
  ∀ id, (∀ t, (d.change t).users.find? id = t.users.find? id) ∨
    (.lock (.user id) ∈ d.holds ∧ P id (s.users.find? id))

section Touches

variable {R : BackstageRely} {unused : Nat → BackstageStore → Prop}
  {P : Nat → Option User → Prop} {d d' : BackstageDraft} {s s' : BackstageStore}

theorem touchesUsers_of_idle (h : d.Idle) : TouchesUsers P d s :=
  fun id => .inl fun t => by rw [h t]

theorem TouchesUsers.later (hframe : FramesUsers R) (h : TouchesUsers P d s)
    (hlater : Txn.Later R d s d' s') (hsame : ∀ t, (d'.change t).users = (d.change t).users) :
    TouchesUsers P d' s' := by
  intro id
  rcases h id with hid | ⟨hlock, hp⟩
  · exact .inl fun t => by rw [hsame t, hid t]
  · exact .inr ⟨hlater.holds hlock, by rwa [hframe _ _ _ _ hlater.moved hlock]⟩

theorem TouchesUsers.execute (hframe : FramesUsers R) (h : TouchesUsers P d s)
    (hs : R d.holds s s') {locks : List BackstageLock} {c : BackstageStore → BackstageStore}
    (hc : ∀ id, (∀ t, (d.change t).users.find? id = t.users.find? id) →
      (∀ t, (c t).users.find? id = t.users.find? id) ∨
        (.user id ∈ locks ∧ P id (s'.users.find? id))) :
    TouchesUsers P (d.execute s' locks c) s' := by
  intro id
  rw [Draft.holds_execute]
  rcases h id with hid | ⟨hlock, hp⟩
  · rcases hc id hid with hcid | ⟨hmem, hp⟩
    · exact .inl fun t => (hcid (d.change t)).trans (hid t)
    · exact .inr ⟨List.mem_append_right _ (List.mem_map_of_mem hmem), hp⟩
  · exact .inr ⟨List.mem_append_left _ hlock, by rwa [hframe _ _ _ _ hs hlock]⟩

theorem amid_act_touchesUsers (hframe : FramesUsers R) {α : Type}
    {locks : BackstageStore → List BackstageLock}
    {f : BackstageStore → Except Failure (α × (BackstageStore → BackstageStore))}
    (h : TouchesUsers P d s) (hf : ∀ s' a c, f (d.change s') = .ok (a, c) → ∀ i,
      (∀ t, (d.change t).users.find? i = t.users.find? i) →
        (∀ t, (c t).users.find? i = t.users.find? i) ∨
          (.user i ∈ locks (d.change s') ∧ P i (s'.users.find? i))) :
    (Txn.act locks f).amid R unused (fun _ d' s' => TouchesUsers P d' s') d s :=
  (Txn.amid_act _ _).mpr fun s' hs' a c hc => h.execute hframe hs' (hf s' a c hc)

theorem amid_touchesUsers (hR : Txn.IsRely R) (hframe : FramesUsers R) {α : Type}
    {p : BackstageTx α} (hp : p.Leaves BackstageStore.users) (hs : R d.holds s s)
    (h : TouchesUsers P d s) : p.amid R unused (fun _ d' s' => TouchesUsers P d' s') d s :=
  Txn.amid_mono (Txn.amid_and_later hR hs hp.amid) fun _ _ _ ⟨hsame, hlater⟩ =>
    h.later hframe hlater hsame

end Touches

/-! ## Locking the accounts that satisfy a condition -/

/-- What `SELECT … FOR UPDATE` leaves behind: the selected accounts are locked, and satisfy
its condition from then on. -/
structure LockedUsers (p : Nat → User → Bool) (ids : List Nat) (d : BackstageDraft)
    (s : BackstageStore) : Prop where
  nodup : ids.Nodup
  locked : ∀ id ∈ ids, .lock (.user id) ∈ d.holds
  found : ∀ id ∈ ids, (s.users.find? id).any (p id) = true

section Lock

variable {R : BackstageRely} {unused : Nat → BackstageStore → Prop}
  {p : Nat → User → Bool} {d d' : BackstageDraft} {s s' : BackstageStore}

theorem LockedUsers.later (hframe : FramesUsers R) {ids : List Nat} (h : LockedUsers p ids d s)
    (hholds : d.holds ⊆ d'.holds) (hs : R d.holds s s') : LockedUsers p ids d' s' where
  nodup := h.nodup
  locked id hid := hholds (h.locked id hid)
  found id hid := by
    rw [hframe _ _ _ _ hs (h.locked id hid)]
    exact h.found id hid

theorem LockedUsers.candidate (hframe : FramesUsers R) {ids : List Nat} {i : Nat}
    (h : LockedUsers p ids d s) (hidle : d.Idle) (hi : i ∉ ids) (hs : R d.holds s s') :
    LockedUsers p
      (if ((d.change s').users.find? i).any (p i) then ids ++ [i] else ids)
      (d.execute s' [.user i] id) s' := by
  have hkept : LockedUsers p ids (d.execute s' [.user i] id) s' :=
    h.later hframe (fun _ hx => List.mem_append_left _ hx) hs
  rw [hidle s']
  split
  · rename_i hany
    refine ⟨?_, ?_, ?_⟩
    · exact List.nodup_append.mpr ⟨h.nodup, List.nodup_singleton i,
        fun x hx y hy => by
          rw [List.mem_singleton] at hy
          rintro rfl
          exact hi (hy ▸ hx)⟩
    · intro j hj
      rcases List.mem_append.mp hj with hj | hj
      · exact hkept.locked j hj
      · obtain rfl := List.mem_singleton.mp hj
        simp
    · intro j hj
      rcases List.mem_append.mp hj with hj | hj
      · exact hkept.found j hj
      · obtain rfl := List.mem_singleton.mp hj
        exact hany
  · exact hkept

theorem amid_lockUsersWhere (hframe : FramesUsers R) (hidle : d.Idle) :
    (lockUsersWhere p).amid R unused
      (fun ids d' s' => d'.Idle ∧ LockedUsers p ids d' s') d s := by
  refine (Txn.amid_bind _ _).mpr ((Txn.amid_query _).mpr fun s₁ _ => ?_)
  have hnodup : (((d.change s₁).users.select p).map (·.1)).Nodup := by
    have hpairs := Table.select_pairwise (d.change s₁).users p
    exact List.pairwise_map.mpr (hpairs.imp fun h => Nat.ne_of_lt h)
  refine Txn.amid_mono (Txn.amid_foldlM
    (fun rest ids d' s' => d'.Idle ∧ LockedUsers p ids d' s' ∧ rest.Nodup ∧ ∀ id ∈ rest, id ∉ ids)
    ?_ ⟨hidle.execute s₁ [], ⟨List.nodup_nil, by simp, by simp⟩, hnodup, by simp⟩)
    fun ids d' s' h => ⟨h.1, h.2.1⟩
  intro id rest ids d' s' ⟨hidle', hlocked, hrest, hfresh⟩
  obtain ⟨hid, hrest⟩ := List.nodup_cons.mp hrest
  refine (Txn.amid_bind _ _).mpr ((Txn.amid_queryForUpdate _ _).mpr fun s₂ hs₂ => ?_)
  refine ⟨hidle'.execute s₂ _, ?_, hrest, ?_⟩
  · exact hlocked.candidate hframe hidle' (hfresh id List.mem_cons_self) hs₂
  · intro j hj hmem
    have hj' := hfresh j (List.mem_cons_of_mem _ hj)
    split at hmem
    · rcases List.mem_append.mp hmem with hmem | hmem
      · exact hj' hmem
      · exact hid (List.mem_singleton.mp hmem ▸ hj)
    · exact hj' hmem

theorem leaves_lockUsersWhere {τ : Type} {g : BackstageStore → τ} :
    (lockUsersWhere p).Leaves g := by
  refine (Txn.leaves_query _).bind fun candidates => Txn.leaves_foldlM (fun locked id => ?_) []
  exact (Txn.leaves_queryForUpdate _ _).bind fun found => Txn.leaves_pure _

end Lock

end Wbme.Backstage

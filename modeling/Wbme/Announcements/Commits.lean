import Wbme.Announcements.Service
import Wbme.IdempotencyAmid

/-! # What the operations on announcements commit

A draft, an edit, a display that makes room for itself, a withdrawal, or deletions. Whatever the
transactions have read, the unique index keeps the announcements on display to one.
-/

namespace Wbme.Announcements

open Lib AnnouncementService

abbrev AnnouncementDraft := Draft AnnouncementStore AnnouncementLock

abbrev AnnouncementDatabase :=
  Database AnnouncementStore AnnouncementLock Failure AnnouncementReply AnnouncementActivity

/-! ## Activities -/

def AnnouncementActivity.publishes (a : AnnouncementActivity) : Option Nat :=
  match a.operation with
  | .publish id => some id
  | _ => none

def AnnouncementActivity.edits (a : AnnouncementActivity) : Bool :=
  match a.operation with
  | .update _ _ => true
  | _ => false

/-! ## Commits -/

def display (ids : List Nat) (id : Nat) (f : Announcement → Announcement)
    (t : Table Announcement) : Table Announcement :=
  (t.updateMany (fun i _ => ids.contains i) .revoke).update id f

inductive AnnouncementEffect (a : AnnouncementActivity) (H : List (Hold AnnouncementLock))
    (s s' : AnnouncementStore) : Prop where
  | created (n : Nat) (x : Announcement) (ha : a.publishes = none) (hkey : .key n ∈ H)
      (hnone : s.announcements.find? n = none) (hdraft : x.status = .draft)
      (hrows : s'.announcements = s.announcements.insert n x)
  | edited (n : Nat) (x : Announcement) (title : String) (content : Option String)
      (ha : a.publishes = none) (hedits : a.edits = true) (hlock : .lock (.row n) ∈ H)
      (hx : s.announcements.find? n = some x)
      (hrows : s'.announcements = s.announcements.update n (.edit title content))
  | revoked (n : Nat) (x : Announcement) (ha : a.publishes = none) (hlock : .lock (.row n) ∈ H)
      (hx : s.announcements.find? n = some x)
      (hrows : s'.announcements = s.announcements.update n .revoke)
  | deleted (ids : List Nat) (now : Int) (ha : a.publishes = none)
      (hlocks : ∀ n ∈ ids, .lock (.row n) ∈ H)
      (hrows : s'.announcements = s.announcements.updateMany (fun n _ => ids.contains n)
        (.delete now))
  | published (n : Nat) (x : Announcement) (ids : List Nat) (now : Int) (operatorId : Nat)
      (ha : a.publishes = some n) (hlock : .lock (.row n) ∈ H)
      (hlocks : ∀ i ∈ ids, .lock (.row i) ∈ H) (hnot : n ∉ ids)
      (hx : s.announcements.find? n = some x)
      (hlive : x.isLive = true → .lock .displayed ∈ H ∧
        ∀ i y, s.announcements.find? i = some y → y.isDisplayed = true → i = n ∨ i ∈ ids)
      (hrows : s'.announcements = display ids n (.publish now operatorId) s.announcements)

def OneDisplayed (s : AnnouncementStore) : Prop :=
  ∀ m n x y, s.announcements.find? m = some x → s.announcements.find? n = some y →
    x.isDisplayed = true → y.isDisplayed = true → m = n

theorem oneDisplayed_empty : OneDisplayed .empty := by
  intro m n x y hm
  cases hm

variable {k : Nat} {y : Announcement}

section Effect

variable {a : AnnouncementActivity} {H : List (Hold AnnouncementLock)} {s s' : AnnouncementStore}

theorem mem_displayed {n : Nat} {x : Announcement} :
    (n, x) ∈ displayed s ↔ s.announcements.find? n = some x ∧ x.isDisplayed = true := by
  simp [displayed, Table.mem_select]

theorem AnnouncementEffect.mono {H' : List (Hold AnnouncementLock)}
    (h : AnnouncementEffect a H s s') (hsub : H ⊆ H') : AnnouncementEffect a H' s s' := by
  cases h with
  | created n x ha hkey hnone hdraft hrows =>
      exact .created n x ha (hsub hkey) hnone hdraft hrows
  | edited n x title content ha hedits hlock hx hrows =>
      exact .edited n x title content ha hedits (hsub hlock) hx hrows
  | revoked n x ha hlock hx hrows => exact .revoked n x ha (hsub hlock) hx hrows
  | deleted ids now ha hlocks hrows =>
      exact .deleted ids now ha (fun n hn => hsub (hlocks n hn)) hrows
  | published n x ids now operatorId ha hlock hlocks hnot hx hlive hrows =>
      exact .published n x ids now operatorId ha (hsub hlock) (fun i hi => hsub (hlocks i hi)) hnot
        hx (fun h => ⟨hsub (hlive h).1, (hlive h).2⟩) hrows

theorem AnnouncementEffect.congr {s'' : AnnouncementStore} (h : AnnouncementEffect a H s s')
    (hsame : s''.announcements = s'.announcements) : AnnouncementEffect a H s s'' := by
  cases h with
  | created n x ha hkey hnone hdraft hrows =>
      exact .created n x ha hkey hnone hdraft (hsame.trans hrows)
  | edited n x title content ha hedits hlock hx hrows =>
      exact .edited n x title content ha hedits hlock hx (hsame.trans hrows)
  | revoked n x ha hlock hx hrows => exact .revoked n x ha hlock hx (hsame.trans hrows)
  | deleted ids now ha hlocks hrows => exact .deleted ids now ha hlocks (hsame.trans hrows)
  | published n x ids now operatorId ha hlock hlocks hnot hx hlive hrows =>
      exact .published n x ids now operatorId ha hlock hlocks hnot hx hlive (hsame.trans hrows)

/-! ## Rows after a commit -/

theorem find?_updateMany_ids (t : Table Announcement) (ids : List Nat)
    (f : Announcement → Announcement) (k : Nat) :
    (t.updateMany (fun i _ => ids.contains i) f).find? k =
      if k ∈ ids then (t.find? k).map f else t.find? k := by
  rw [Table.find?_updateMany]
  by_cases hk : k ∈ ids
  · cases t.find? k <;> simp [hk]
  · cases t.find? k <;> simp [hk]

inductive RowStep (a : AnnouncementActivity) (H : List (Hold AnnouncementLock)) (k : Nat)
    (x : Announcement) : Announcement → Prop
  | same : RowStep a H k x x
  | edited (title : String) (content : Option String) (hedits : a.edits = true)
      (hlock : .lock (.row k) ∈ H) : RowStep a H k x (x.edit title content)
  | revoked (hlock : .lock (.row k) ∈ H) : RowStep a H k x x.revoke
  | deleted (now : Int) (hlock : .lock (.row k) ∈ H) : RowStep a H k x (x.delete now)
  | published (now : Int) (operatorId : Nat) (ha : a.publishes = some k)
      (hlock : .lock (.row k) ∈ H) (hlive : x.isLive = true → .lock .displayed ∈ H) :
      RowStep a H k x (x.publish now operatorId)

theorem AnnouncementEffect.origin (h : AnnouncementEffect a H s s') {k : Nat} {y : Announcement}
    (hy : s'.announcements.find? k = some y) :
    (∃ x, s.announcements.find? k = some x ∧ RowStep a H k x y) ∨
      (s.announcements.find? k = none ∧ .key k ∈ H ∧ y.status = .draft) := by
  cases h with
  | created n x _ hkey hnone hdraft hrows =>
      rw [hrows, Table.find?_insert] at hy
      split at hy
      · rename_i hkn
        obtain rfl := Option.some.inj hy
        subst hkn
        exact .inr ⟨hnone, hkey, hdraft⟩
      · exact .inl ⟨y, hy, .same⟩
  | edited n x title content _ hedits hlock hx hrows =>
      rw [hrows] at hy
      by_cases hkn : k = n
      · subst hkn
        rw [Table.find?_update_of_find? hx] at hy
        obtain rfl := Option.some.inj hy
        exact .inl ⟨x, hx, .edited title content hedits hlock⟩
      · rw [Table.find?_update_ne _ _ hkn] at hy
        exact .inl ⟨y, hy, .same⟩
  | revoked n x _ hlock hx hrows =>
      rw [hrows] at hy
      by_cases hkn : k = n
      · subst hkn
        rw [Table.find?_update_of_find? hx] at hy
        obtain rfl := Option.some.inj hy
        exact .inl ⟨x, hx, .revoked hlock⟩
      · rw [Table.find?_update_ne _ _ hkn] at hy
        exact .inl ⟨y, hy, .same⟩
  | deleted ids now _ hlocks hrows =>
      rw [hrows, find?_updateMany_ids] at hy
      split at hy
      · rename_i hk
        obtain ⟨x, hx, rfl⟩ := Option.map_eq_some_iff.mp hy
        exact .inl ⟨x, hx, .deleted now (hlocks k hk)⟩
      · exact .inl ⟨y, hy, .same⟩
  | published n x ids now operatorId ha hlock hlocks hnot hx hlive hrows =>
      rw [hrows, display] at hy
      by_cases hkn : k = n
      · subst hkn
        have hrow : (s.announcements.updateMany (fun i _ => ids.contains i) .revoke).find? k =
            some x := by
          rw [find?_updateMany_ids, if_neg hnot]
          exact hx
        rw [Table.find?_update_of_find? hrow] at hy
        obtain rfl := Option.some.inj hy
        exact .inl ⟨x, hx, .published now operatorId ha hlock fun h => (hlive h).1⟩
      · rw [Table.find?_update_ne _ _ hkn, find?_updateMany_ids] at hy
        split at hy
        · rename_i hk
          obtain ⟨z, hz, rfl⟩ := Option.map_eq_some_iff.mp hy
          exact .inl ⟨z, hz, .revoked (hlocks k hk)⟩
        · exact .inl ⟨y, hy, .same⟩

theorem AnnouncementEffect.kept (h : AnnouncementEffect a H s s') {k : Nat}
    (hk : s'.announcements.find? k = none) : s.announcements.find? k = none := by
  cases h with
  | created n x _ _ _ _ hrows =>
      rw [hrows, Table.find?_insert] at hk
      split at hk
      · cases hk
      · exact hk
  | edited n x title content _ _ _ _ hrows => simpa [hrows, Table.find?_update] using hk
  | revoked n x _ _ _ hrows => simpa [hrows, Table.find?_update] using hk
  | deleted ids now _ _ hrows => simpa [hrows, Table.find?_updateMany] using hk
  | published n x ids now operatorId _ _ _ _ _ _ hrows =>
      simpa [hrows, display, Table.find?_update, Table.find?_updateMany] using hk

theorem AnnouncementEffect.rowStep (h : AnnouncementEffect a H s s') {k : Nat} {x : Announcement}
    (hx : s.announcements.find? k = some x) :
    ∃ y, s'.announcements.find? k = some y ∧ RowStep a H k x y := by
  cases hy : s'.announcements.find? k with
  | none => cases (h.kept hy).symm.trans hx
  | some y =>
      rcases h.origin hy with ⟨z, hz, hstep⟩ | ⟨hnone, -⟩
      · obtain rfl := Option.some.inj (hx.symm.trans hz)
        exact ⟨y, rfl, hstep⟩
      · cases hnone.symm.trans hx

/-! ## What every commit keeps -/

theorem RowStep.displayed {k : Nat} {x y : Announcement} (h : RowStep a H k x y)
    (hy : y.isDisplayed = true) :
    x.isDisplayed = true ∨ (a.publishes = some k ∧ x.isLive = true ∧ .lock .displayed ∈ H) := by
  cases h with
  | same => exact .inl hy
  | edited title content hedits hlock => exact .inl hy
  | revoked hlock => cases hy
  | deleted now hlock => cases hy
  | published now operatorId ha hlock hlive =>
      have hx : x.isLive = true := hy
      exact .inr ⟨ha, hx, hlive hx⟩

theorem AnnouncementEffect.displayed (h : AnnouncementEffect a H s s')
    (hy : s'.announcements.find? k = some y) (hdisplayed : y.isDisplayed = true) :
    ∃ x, s.announcements.find? k = some x ∧ (x.isDisplayed = true ∨
      (a.publishes = some k ∧ x.isLive = true ∧ .lock .displayed ∈ H)) := by
  rcases h.origin hy with ⟨x, hx, hstep⟩ | ⟨-, -, hdraft⟩
  · exact ⟨x, hx, hstep.displayed hdisplayed⟩
  · simp [Announcement.isDisplayed, hdraft] at hdisplayed

theorem AnnouncementEffect.alone (h : AnnouncementEffect a H s s') {n : Nat} {x : Announcement}
    (ha : a.publishes = some n) (hx : s.announcements.find? n = some x) (hlive : x.isLive = true)
    {k : Nat} {y : Announcement} (hy : s'.announcements.find? k = some y)
    (hdisplayed : y.isDisplayed = true) : k = n := by
  cases h with
  | created _ _ hnot => cases hnot.symm.trans ha
  | edited _ _ _ _ hnot => cases hnot.symm.trans ha
  | revoked _ _ hnot => cases hnot.symm.trans ha
  | deleted _ _ hnot => cases hnot.symm.trans ha
  | published m z ids now operatorId hm _ _ _ hz hothers hrows =>
      obtain rfl := Option.some.inj (hm.symm.trans ha)
      obtain rfl := Option.some.inj (hx.symm.trans hz)
      by_contra hne
      rw [hrows, display, Table.find?_update_ne _ _ hne, find?_updateMany_ids] at hy
      split at hy
      · obtain ⟨w, -, rfl⟩ := Option.map_eq_some_iff.mp hy
        cases hdisplayed
      · rename_i hk
        exact ((hothers hlive).2 k y hy hdisplayed).elim hne hk

theorem AnnouncementEffect.oneDisplayed (h : AnnouncementEffect a H s s') (hs : OneDisplayed s) :
    OneDisplayed s' := by
  intro m n x y hm hn hx hy
  obtain ⟨x₀, hm₀, hx₀⟩ := h.displayed hm hx
  obtain ⟨y₀, hn₀, hy₀⟩ := h.displayed hn hy
  rcases hx₀ with hx₀ | ⟨ha, hlive, -⟩
  · rcases hy₀ with hy₀ | ⟨ha, hlive, -⟩
    · exact hs m n x₀ y₀ hm₀ hn₀ hx₀ hy₀
    · exact h.alone ha hn₀ hlive hm hx
  · exact (h.alone ha hm₀ hlive hn hy).symm

/-! ## What others leave alone -/

theorem AnnouncementEffect.row_frame (h : AnnouncementEffect a H s s') {k : Nat}
    {x : Announcement} (hlock : .lock (.row k) ∉ H) (hx : s.announcements.find? k = some x) :
    s'.announcements.find? k = some x := by
  obtain ⟨y, hy, hstep⟩ := h.rowStep hx
  rw [hy]
  cases hstep with
  | same => rfl
  | edited title content hedits hheld => exact absurd hheld hlock
  | revoked hheld => exact absurd hheld hlock
  | deleted now hheld => exact absurd hheld hlock
  | published now operatorId ha hheld hlive => exact absurd hheld hlock

theorem AnnouncementEffect.unborn_frame (h : AnnouncementEffect a H s s') {k : Nat}
    (hkey : .key k ∉ H) (hk : s.announcements.find? k = none) :
    s'.announcements.find? k = none := by
  cases hy : s'.announcements.find? k with
  | none => rfl
  | some y =>
      rcases h.origin hy with ⟨x, hx, -⟩ | ⟨-, hheld, -⟩
      · cases hk.symm.trans hx
      · exact absurd hheld hkey

theorem AnnouncementEffect.displayed_frame (h : AnnouncementEffect a H s s')
    (hlock : .lock .displayed ∉ H) (hy : s'.announcements.find? k = some y)
    (hdisplayed : y.isDisplayed = true) :
    ∃ x, s.announcements.find? k = some x ∧ x.isDisplayed = true := by
  obtain ⟨x, hx, hor⟩ := h.displayed hy hdisplayed
  rcases hor with hx' | ⟨-, -, hheld⟩
  · exact ⟨x, hx, hx'⟩
  · exact absurd hheld hlock

end Effect

/-! ## The discipline -/

/-- A commit that changes nothing at all is a replay. -/
def announcementDiscipline :
    Discipline AnnouncementStore AnnouncementLock AnnouncementReply AnnouncementActivity where
  invariant := OneDisplayed
  unused n s := ∀ k, n ≤ k → s.announcements.find? k = none
  commits a _ d s s' := s' = s ∨ AnnouncementEffect a d.holds s s'
  invariant_of_commits _ _ _ _ _ h hs := h.elim (fun heq => heq ▸ hs) fun h => h.oneDisplayed hs
  unused_of_le _ _ _ h hle k hk := h k (Nat.le_trans hle hk)
  unused_of_commits _ _ _ _ _ _ h hs hkeys k hk :=
    h.elim (fun heq => heq ▸ hs k hk) fun h =>
      h.unborn_frame (fun hmem => absurd (hkeys k hmem) (Nat.not_lt.mpr hk)) (hs k hk)

section Rely

variable {H : List (Hold AnnouncementLock)} {s s' : AnnouncementStore}

theorem rely_keeps {P : AnnouncementStore → Prop} {held : Hold AnnouncementLock}
    (hheld : held ∈ H)
    (hframe : ∀ a H s s', AnnouncementEffect a H s s' → held ∉ H → P s → P s')
    (h : announcementDiscipline.Rely H s s') (hs : P s) : P s' := by
  revert hs
  apply h.induction (P := fun s s' => P s → P s')
  · exact fun _ hs => hs
  · exact fun _ _ _ h h' hs => h' (h hs)
  · intro a x d s s' h hapart hs
    rcases h with rfl | h
    · exact hs
    · exact hframe a _ s s' h (fun hmem => hapart _ hmem hheld) hs

theorem row_kept (h : announcementDiscipline.Rely H s s') {x : Announcement}
    (hlock : .lock (.row k) ∈ H) (hx : s.announcements.find? k = some x) :
    s'.announcements.find? k = some x :=
  rely_keeps (P := fun s => s.announcements.find? k = some x) hlock
    (fun _ _ _ _ h hnot => h.row_frame hnot) h hx

theorem unborn_kept (h : announcementDiscipline.Rely H s s') (hkey : .key k ∈ H)
    (hk : s.announcements.find? k = none) : s'.announcements.find? k = none :=
  rely_keeps (P := fun s => s.announcements.find? k = none) hkey
    (fun _ _ _ _ h hnot => h.unborn_frame hnot) h hk

theorem displayed_kept (h : announcementDiscipline.Rely H s s') (hlock : .lock .displayed ∈ H)
    (hy : s'.announcements.find? k = some y) (hdisplayed : y.isDisplayed = true) :
    ∃ x, s.announcements.find? k = some x ∧ x.isDisplayed = true := by
  let t := s
  have hkeeps : ∀ k y, s'.announcements.find? k = some y → y.isDisplayed = true →
      ∃ x, t.announcements.find? k = some x ∧ x.isDisplayed = true := by
    refine rely_keeps (P := fun s => ∀ k y, s.announcements.find? k = some y →
      y.isDisplayed = true → ∃ x, t.announcements.find? k = some x ∧ x.isDisplayed = true) hlock
      ?_ h fun k y hy hd => ⟨y, hy, hd⟩
    intro _ _ s₁ s₂ h hnot hs k y hy hd
    obtain ⟨x, hx, hx'⟩ := h.displayed_frame hnot hy hd
    exact hs k x hx hx'
  exact hkeeps k y hy hdisplayed

end Rely

end Wbme.Announcements

import Wbme.Qr.Codes
import Wbme.IdempotencyAmid

/-! # What the operations on codes commit

A new code, a change between active and disabled, or a replacement. An update by the id alone
cannot bring a revoked code back: the code that replaced it, or a later one, still stands in the
unique index.
-/

namespace Wbme.Qr

open Lib QrService

abbrev QrDraft := Draft QrStore QrLock

abbrev QrDatabase := Database QrStore QrLock Failure QrReply QrActivity

/-! ## Commits -/

inductive QrEffect (H : List (Hold QrLock)) (s s' : QrStore) : Prop where
  | still (hcodes : s'.qrCodes = s.qrCodes)
  | created (n : Nat) (c : QrCode) (hkey : .key n ∈ H) (hname : .lock (.publicId c.publicId) ∈ H)
      (htarget : .lock (.target c.target) ∈ H) (hnone : s.qrCodes.find? n = none)
      (hfree : liveCodes s c.target = []) (hnew : codesNamed s c.publicId = [])
      (hactive : c.status = .active) (hcodes : s'.qrCodes = s.qrCodes.insert n c)
  | switched (n : Nat) (c : QrCode) (status : QrStatus) (hlock : .lock (.code n) ∈ H)
      (htarget : .lock (.target c.target) ∈ H) (hc : s.qrCodes.find? n = some c)
      (hlive : c.status ≠ .revoked) (hstatus : status ≠ .revoked)
      (hcodes : s'.qrCodes = s.qrCodes.update n (.withStatus status))
  | regenerated (m n : Nat) (c : QrCode) (publicId : String) (hlock : .lock (.code m) ∈ H)
      (htarget : .lock (.target c.target) ∈ H) (hkey : .key n ∈ H)
      (hname : .lock (.publicId publicId) ∈ H) (hc : s.qrCodes.find? m = some c)
      (hlive : c.status ≠ .revoked) (hnone : s.qrCodes.find? n = none)
      (hnew : codesNamed s publicId = [])
      (hcodes : s'.qrCodes = (s.qrCodes.update m (.withStatus .revoked)).insert n
        ⟨publicId, c.targetType, c.targetId, .active⟩)

/-- A target has one code that is not revoked, and has one once it has had any; no two codes
share a public id. -/
structure CodesSound (s : QrStore) : Prop where
  one : ∀ m n c e, s.qrCodes.find? m = some c → s.qrCodes.find? n = some e →
    c.status ≠ .revoked → e.status ≠ .revoked → c.target = e.target → m = n
  successor : ∀ n c, s.qrCodes.find? n = some c → c.status = .revoked →
    ∃ m e, s.qrCodes.find? m = some e ∧ e.target = c.target ∧ e.status ≠ .revoked
  named : ∀ m n c e, s.qrCodes.find? m = some c → s.qrCodes.find? n = some e →
    c.publicId = e.publicId → m = n

theorem codesSound_empty : CodesSound .empty where
  one m n c e hm := by cases hm
  successor n c hn := by cases hn
  named m n c e hm := by cases hm

section Effect

variable {H : List (Hold QrLock)} {s s' : QrStore}

theorem mem_liveCodes {target : QrTarget} {n : Nat} {c : QrCode} :
    (n, c) ∈ liveCodes s target ↔
      s.qrCodes.find? n = some c ∧ c.target = target ∧ c.status ≠ .revoked := by
  simp [liveCodes, Table.mem_select]

theorem mem_codesNamed {publicId : String} {n : Nat} {c : QrCode} :
    (n, c) ∈ codesNamed s publicId ↔ s.qrCodes.find? n = some c ∧ c.publicId = publicId := by
  simp [codesNamed, Table.mem_select]

theorem revoked_of_free {target : QrTarget} (h : liveCodes s target = []) {n : Nat} {c : QrCode}
    (hc : s.qrCodes.find? n = some c) (htarget : c.target = target) : c.status = .revoked := by
  by_contra hlive
  have hmem := mem_liveCodes.mpr ⟨hc, htarget, hlive⟩
  rw [h] at hmem
  cases hmem

theorem ne_of_new {publicId : String} (h : codesNamed s publicId = []) {n : Nat} {c : QrCode}
    (hc : s.qrCodes.find? n = some c) : c.publicId ≠ publicId := by
  intro heq
  have hmem := mem_codesNamed.mpr ⟨hc, heq⟩
  rw [h] at hmem
  cases hmem

theorem QrEffect.mono {H' : List (Hold QrLock)} (h : QrEffect H s s') (hsub : H ⊆ H') :
    QrEffect H' s s' := by
  cases h with
  | still hcodes => exact .still hcodes
  | created n c hkey hname htarget hnone hfree hnew hactive hcodes =>
      exact .created n c (hsub hkey) (hsub hname) (hsub htarget) hnone hfree hnew hactive hcodes
  | switched n c status hlock htarget hc hlive hstatus hcodes =>
      exact .switched n c status (hsub hlock) (hsub htarget) hc hlive hstatus hcodes
  | regenerated m n c publicId hlock htarget hkey hname hc hlive hnone hnew hcodes =>
      exact .regenerated m n c publicId (hsub hlock) (hsub htarget) (hsub hkey) (hsub hname) hc
        hlive hnone hnew hcodes

theorem QrEffect.congr {s'' : QrStore} (h : QrEffect H s s') (hsame : s''.qrCodes = s'.qrCodes) :
    QrEffect H s s'' := by
  cases h with
  | still hcodes => exact .still (hsame.trans hcodes)
  | created n c hkey hname htarget hnone hfree hnew hactive hcodes =>
      exact .created n c hkey hname htarget hnone hfree hnew hactive (hsame.trans hcodes)
  | switched n c status hlock htarget hc hlive hstatus hcodes =>
      exact .switched n c status hlock htarget hc hlive hstatus (hsame.trans hcodes)
  | regenerated m n c publicId hlock htarget hkey hname hc hlive hnone hnew hcodes =>
      exact .regenerated m n c publicId hlock htarget hkey hname hc hlive hnone hnew
        (hsame.trans hcodes)

/-! ## Rows after a commit -/

/-- A row keeps its public id and its target, and is revoked for good. -/
structure SameCode (c c' : QrCode) : Prop where
  publicId : c'.publicId = c.publicId
  targetType : c'.targetType = c.targetType
  targetId : c'.targetId = c.targetId
  revoked : c.status = .revoked → c'.status = .revoked

theorem SameCode.refl (c : QrCode) : SameCode c c := ⟨rfl, rfl, rfl, id⟩

theorem SameCode.target {c c' : QrCode} (h : SameCode c c') : c'.target = c.target := by
  unfold QrCode.target
  rw [h.targetType, h.targetId]

theorem SameCode.trans {c c' c'' : QrCode} (h : SameCode c c') (h' : SameCode c' c'') :
    SameCode c c'' :=
  ⟨h'.publicId.trans h.publicId, h'.targetType.trans h.targetType, h'.targetId.trans h.targetId,
    fun hc => h'.revoked (h.revoked hc)⟩

theorem QrEffect.sameCode (h : QrEffect H s s') {k : Nat} {c : QrCode}
    (hk : s.qrCodes.find? k = some c) : ∃ c', s'.qrCodes.find? k = some c' ∧ SameCode c c' := by
  have hne : ∀ {n}, s.qrCodes.find? n = none → k ≠ n := by
    intro n hnone heq
    subst heq
    cases hnone.symm.trans hk
  cases h with
  | still hcodes => exact ⟨c, by rw [hcodes]; exact hk, .refl c⟩
  | created n e _ _ _ hnone _ _ _ hcodes =>
      exact ⟨c, by rw [hcodes, Table.find?_insert_ne _ e (hne hnone)]; exact hk, .refl c⟩
  | switched n e status _ _ he hlive _ hcodes =>
      rw [hcodes]
      by_cases hkn : k = n
      · subst hkn
        obtain rfl := Option.some.inj (hk.symm.trans he)
        exact ⟨_, Table.find?_update_of_find? hk _, rfl, rfl, rfl, fun hc => absurd hc hlive⟩
      · exact ⟨c, by rw [Table.find?_update_ne _ _ hkn]; exact hk, .refl c⟩
  | regenerated m n e publicId _ _ _ _ he _ hnone _ hcodes =>
      rw [hcodes, Table.find?_insert_ne _ _ (hne hnone)]
      by_cases hkm : k = m
      · subst hkm
        exact ⟨_, Table.find?_update_of_find? hk _, rfl, rfl, rfl, fun _ => rfl⟩
      · exact ⟨c, by rw [Table.find?_update_ne _ _ hkm]; exact hk, .refl c⟩

/-- A row that a commit adds, under a key and names that it holds. -/
structure Born (H : List (Hold QrLock)) (s : QrStore) (k : Nat) (c : QrCode) : Prop where
  none : s.qrCodes.find? k = none
  key : .key k ∈ H
  name : .lock (.publicId c.publicId) ∈ H
  target : .lock (.target c.target) ∈ H
  new : codesNamed s c.publicId = []
  active : c.status = .active

/-- A row that was there before a commit. -/
def Kept (s : QrStore) (k : Nat) (c : QrCode) : Prop :=
  ∃ e, s.qrCodes.find? k = some e ∧ SameCode e c

theorem Kept.of_find? {k : Nat} {c : QrCode} (hk : s.qrCodes.find? k = some c) : Kept s k c :=
  ⟨c, hk, .refl c⟩

theorem QrEffect.origin (h : QrEffect H s s') :
    ∃ n, ∀ k c, s'.qrCodes.find? k = some c → Kept s k c ∨ (k = n ∧ Born H s k c) := by
  cases h with
  | still hcodes => exact ⟨0, fun k c hk => .inl (.of_find? (hcodes ▸ hk))⟩
  | created n e hkey hname htarget hnone _ hnew hactive hcodes =>
      refine ⟨n, fun k c hk => ?_⟩
      rw [hcodes, Table.find?_insert] at hk
      split at hk
      · rename_i hkn
        obtain rfl := Option.some.inj hk
        subst hkn
        exact .inr ⟨rfl, hnone, hkey, hname, htarget, hnew, hactive⟩
      · exact .inl (.of_find? hk)
  | switched n e status _ _ he hlive _ hcodes =>
      refine ⟨0, fun k c hk => .inl ?_⟩
      rw [hcodes] at hk
      by_cases hkn : k = n
      · subst hkn
        rw [Table.find?_update_of_find? he] at hk
        obtain rfl := Option.some.inj hk
        exact ⟨e, he, rfl, rfl, rfl, fun hc => absurd hc hlive⟩
      · rw [Table.find?_update_ne _ _ hkn] at hk
        exact .of_find? hk
  | regenerated m n e publicId _ htarget hkey hname he hlive hnone hnew hcodes =>
      refine ⟨n, fun k c hk => ?_⟩
      rw [hcodes, Table.find?_insert] at hk
      split at hk
      · rename_i hkn
        obtain rfl := Option.some.inj hk
        subst hkn
        exact .inr ⟨rfl, hnone, hkey, hname, htarget, hnew, rfl⟩
      · refine .inl ?_
        by_cases hkm : k = m
        · subst hkm
          rw [Table.find?_update_of_find? he] at hk
          obtain rfl := Option.some.inj hk
          exact ⟨e, he, rfl, rfl, rfl, fun _ => rfl⟩
        · rw [Table.find?_update_ne _ _ hkm] at hk
          exact .of_find? hk

/-! ## What every commit keeps of the codes -/

theorem QrEffect.named (h : QrEffect H s s') (hs : CodesSound s) {m n : Nat} {c e : QrCode}
    (hm : s'.qrCodes.find? m = some c) (hn : s'.qrCodes.find? n = some e)
    (hname : c.publicId = e.publicId) : m = n := by
  obtain ⟨k, horigin⟩ := h.origin
  rcases horigin m c hm with ⟨c₀, hm₀, hc⟩ | ⟨hmk, hc⟩
  · rcases horigin n e hn with ⟨e₀, hn₀, he⟩ | ⟨-, he⟩
    · exact hs.named m n c₀ e₀ hm₀ hn₀ (hc.publicId.symm.trans (hname.trans he.publicId))
    · exact absurd (hc.publicId.symm.trans hname) (ne_of_new he.new hm₀)
  · rcases horigin n e hn with ⟨e₀, hn₀, he⟩ | ⟨hnk, -⟩
    · exact absurd (he.publicId.symm.trans hname.symm) (ne_of_new hc.new hn₀)
    · rw [hmk, hnk]

theorem QrEffect.alone (h : QrEffect H s s') (hs : CodesSound s) {k : Nat} {c : QrCode}
    (hnone : s.qrCodes.find? k = none) (hk : s'.qrCodes.find? k = some c) {j : Nat} {e : QrCode}
    (hj : s'.qrCodes.find? j = some e) (hlive : e.status ≠ .revoked)
    (htarget : e.target = c.target) : j = k := by
  cases h with
  | still hcodes =>
      rw [hcodes, hnone] at hk
      cases hk
  | created n x _ _ _ _ hfree _ _ hcodes =>
      rw [hcodes, Table.find?_insert] at hj hk
      split at hk
      · rename_i hkn
        obtain rfl := Option.some.inj hk
        split at hj
        · rename_i hjn
          rw [hjn, hkn]
        · exact absurd (revoked_of_free hfree hj htarget) hlive
      · cases hnone.symm.trans hk
  | switched n x status _ _ hx _ _ hcodes =>
      have hkn : k ≠ n := by
        intro heq
        subst heq
        cases hnone.symm.trans hx
      rw [hcodes, Table.find?_update_ne _ _ hkn, hnone] at hk
      cases hk
  | regenerated m n x publicId _ _ _ _ hx hxlive hxnone _ hcodes =>
      have hkm : k ≠ m := by
        intro heq
        subst heq
        cases hnone.symm.trans hx
      rw [hcodes, Table.find?_insert] at hj hk
      split at hk
      · rename_i hkn
        obtain rfl := Option.some.inj hk
        split at hj
        · rename_i hjn
          rw [hjn, hkn]
        · by_cases hjm : j = m
          · subst hjm
            rw [Table.find?_update_of_find? hx] at hj
            obtain rfl := Option.some.inj hj
            exact absurd rfl hlive
          · rw [Table.find?_update_ne _ _ hjm] at hj
            exact absurd (hs.one j m e x hj hx hlive hxlive htarget) hjm
      · rw [Table.find?_update_ne _ _ hkm, hnone] at hk
        cases hk

theorem QrEffect.one (h : QrEffect H s s') (hs : CodesSound s) {m n : Nat} {c e : QrCode}
    (hm : s'.qrCodes.find? m = some c) (hn : s'.qrCodes.find? n = some e)
    (hc : c.status ≠ .revoked) (he : e.status ≠ .revoked) (htarget : c.target = e.target) :
    m = n := by
  obtain ⟨k, horigin⟩ := h.origin
  rcases horigin m c hm with ⟨c₀, hm₀, hsame⟩ | ⟨-, hborn⟩
  · rcases horigin n e hn with ⟨e₀, hn₀, hsame'⟩ | ⟨-, hborn⟩
    · exact hs.one m n c₀ e₀ hm₀ hn₀ (fun h => hc (hsame.revoked h))
        (fun h => he (hsame'.revoked h))
        (hsame.target.symm.trans (htarget.trans hsame'.target))
    · exact h.alone hs hborn.none hn hm hc htarget
  · exact (h.alone hs hborn.none hm hn he htarget.symm).symm

theorem QrEffect.survives (h : QrEffect H s s') {k : Nat} {c : QrCode}
    (hk : s.qrCodes.find? k = some c) (hlive : c.status ≠ .revoked) :
    ∃ j e, s'.qrCodes.find? j = some e ∧ e.target = c.target ∧ e.status ≠ .revoked := by
  cases h with
  | still hcodes => exact ⟨k, c, hcodes ▸ hk, rfl, hlive⟩
  | created n x _ _ _ hnone _ _ _ hcodes =>
      have hkn : k ≠ n := by
        intro heq
        subst heq
        cases hnone.symm.trans hk
      exact ⟨k, c, by rw [hcodes, Table.find?_insert_ne _ x hkn]; exact hk, rfl, hlive⟩
  | switched n x status _ _ hx _ hstatus hcodes =>
      rw [hcodes]
      by_cases hkn : k = n
      · subst hkn
        exact ⟨k, _, Table.find?_update_of_find? hk _, rfl, hstatus⟩
      · exact ⟨k, c, by rw [Table.find?_update_ne _ _ hkn]; exact hk, rfl, hlive⟩
  | regenerated m n x publicId _ _ _ _ hx _ hnone _ hcodes =>
      rw [hcodes]
      by_cases hkm : k = m
      · subst hkm
        obtain rfl := Option.some.inj (hk.symm.trans hx)
        exact ⟨n, _, Table.find?_insert_self _ _ _, rfl, nofun⟩
      · have hkn : k ≠ n := by
          intro heq
          subst heq
          cases hnone.symm.trans hk
        refine ⟨k, c, ?_, rfl, hlive⟩
        rw [Table.find?_insert_ne _ _ hkn, Table.find?_update_ne _ _ hkm]
        exact hk

theorem QrEffect.successor (h : QrEffect H s s') (hs : CodesSound s) {n : Nat} {c : QrCode}
    (hn : s'.qrCodes.find? n = some c) (hc : c.status = .revoked) :
    ∃ m e, s'.qrCodes.find? m = some e ∧ e.target = c.target ∧ e.status ≠ .revoked := by
  obtain ⟨k, horigin⟩ := h.origin
  rcases horigin n c hn with ⟨c₀, hn₀, hsame⟩ | ⟨-, hborn⟩
  · obtain ⟨m, e, hm, htarget, he⟩ : ∃ m e, s.qrCodes.find? m = some e ∧
        e.target = c₀.target ∧ e.status ≠ .revoked := by
      by_cases hc₀ : c₀.status = .revoked
      · exact hs.successor n c₀ hn₀ hc₀
      · exact ⟨n, c₀, hn₀, rfl, hc₀⟩
    obtain ⟨j, e', hj, htarget', he'⟩ := h.survives hm he
    exact ⟨j, e', hj, htarget'.trans (htarget.trans hsame.target.symm), he'⟩
  · rw [hborn.active] at hc
    cases hc

theorem QrEffect.codesSound (h : QrEffect H s s') (hs : CodesSound s) : CodesSound s' where
  one _ _ _ _ hm hn hc he htarget := h.one hs hm hn hc he htarget
  successor _ _ hn hc := h.successor hs hn hc
  named _ _ _ _ hm hn hname := h.named hs hm hn hname

/-! ## What others leave alone -/

theorem QrEffect.code_frame (h : QrEffect H s s') {k : Nat} {c : QrCode}
    (hlock : .lock (.code k) ∉ H) (hk : s.qrCodes.find? k = some c) :
    s'.qrCodes.find? k = some c := by
  have hborn : ∀ {n}, s.qrCodes.find? n = none → k ≠ n := by
    intro n hnone heq
    subst heq
    cases hnone.symm.trans hk
  have hne : ∀ {n}, .lock (.code n) ∈ H → k ≠ n := fun hn heq => hlock (heq ▸ hn)
  cases h with
  | still hcodes => rw [hcodes]; exact hk
  | created n x _ _ _ hnone _ _ _ hcodes =>
      rw [hcodes, Table.find?_insert_ne _ x (hborn hnone)]
      exact hk
  | switched n x status hn _ _ _ _ hcodes =>
      rw [hcodes, Table.find?_update_ne _ _ (hne hn)]
      exact hk
  | regenerated m n x publicId hm _ _ _ _ _ hnone _ hcodes =>
      rw [hcodes, Table.find?_insert_ne _ _ (hborn hnone), Table.find?_update_ne _ _ (hne hm)]
      exact hk

theorem QrEffect.unborn_frame (h : QrEffect H s s') {k : Nat} (hkey : .key k ∉ H)
    (hk : s.qrCodes.find? k = none) : s'.qrCodes.find? k = none := by
  obtain ⟨n, horigin⟩ := h.origin
  cases hk' : s'.qrCodes.find? k with
  | none => rfl
  | some c =>
      rcases horigin k c hk' with ⟨e, he, -⟩ | ⟨-, hborn⟩
      · cases hk.symm.trans he
      · exact absurd hborn.key hkey

theorem QrEffect.free_frame (h : QrEffect H s s') {target : QrTarget}
    (htarget : .lock (.target target) ∉ H) (hfree : liveCodes s target = []) :
    liveCodes s' target = [] := by
  obtain ⟨n, horigin⟩ := h.origin
  rw [List.eq_nil_iff_forall_not_mem]
  intro p hp
  obtain ⟨hk, hsame, hlive⟩ := mem_liveCodes.mp hp
  rcases horigin p.1 p.2 hk with ⟨e, he, hkept⟩ | ⟨-, hborn⟩
  · exact hlive (hkept.revoked (revoked_of_free hfree he (hkept.target.symm.trans hsame)))
  · exact htarget (hsame ▸ hborn.target)

theorem QrEffect.new_frame (h : QrEffect H s s') {publicId : String}
    (hname : .lock (.publicId publicId) ∉ H) (hnew : codesNamed s publicId = []) :
    codesNamed s' publicId = [] := by
  obtain ⟨n, horigin⟩ := h.origin
  rw [List.eq_nil_iff_forall_not_mem]
  intro p hp
  obtain ⟨hk, hsame⟩ := mem_codesNamed.mp hp
  rcases horigin p.1 p.2 hk with ⟨e, he, hkept⟩ | ⟨-, hborn⟩
  · exact ne_of_new hnew he (hkept.publicId.symm.trans hsame)
  · exact hname (hsame ▸ hborn.name)

end Effect

/-! ## The discipline -/

def qrDiscipline : Discipline QrStore QrLock QrReply QrActivity where
  invariant := CodesSound
  unused n s := ∀ k, n ≤ k → s.qrCodes.find? k = none
  commits _ _ d s s' := QrEffect d.holds s s'
  invariant_of_commits _ _ _ _ _ h hs := h.codesSound hs
  unused_of_le _ _ _ h hle k hk := h k (Nat.le_trans hle hk)
  unused_of_commits _ _ _ _ _ _ h hs hkeys k hk :=
    h.unborn_frame (fun hmem => absurd (hkeys k hmem) (Nat.not_lt.mpr hk)) (hs k hk)

theorem qrDiscipline_logs : qrLog.Logs qrDiscipline where
  idle _ _ _ _ _ := .still rfl
  insert _ _ _ _ _ _ _ _ h hsub _ _ := (h.mono hsub).congr rfl

section Rely

variable {H : List (Hold QrLock)} {s s' : QrStore}

theorem rely_keeps {P : QrStore → Prop} {held : Hold QrLock} (hheld : held ∈ H)
    (hframe : ∀ H s s', QrEffect H s s' → held ∉ H → P s → P s')
    (h : qrDiscipline.Rely H s s') (hs : P s) : P s' := by
  revert hs
  apply h.induction (P := fun s s' => P s → P s')
  · exact fun _ hs => hs
  · exact fun _ _ _ h h' hs => h' (h hs)
  · exact fun a x d s s' h hapart => hframe _ s s' h fun hmem => hapart _ hmem hheld

theorem sameCode_of_rely (h : qrDiscipline.Rely H s s') {k : Nat} {c : QrCode}
    (hk : s.qrCodes.find? k = some c) : ∃ c', s'.qrCodes.find? k = some c' ∧ SameCode c c' := by
  have hall : ∀ c, s.qrCodes.find? k = some c →
      ∃ c', s'.qrCodes.find? k = some c' ∧ SameCode c c' := by
    apply h.induction (P := fun s s' => ∀ c, s.qrCodes.find? k = some c →
      ∃ c', s'.qrCodes.find? k = some c' ∧ SameCode c c')
    · exact fun _ c hk => ⟨c, hk, .refl c⟩
    · intro s₁ s₂ s₃ h₁ h₂ c hk
      obtain ⟨c', hk', hc⟩ := h₁ c hk
      obtain ⟨c'', hk'', hc'⟩ := h₂ c' hk'
      exact ⟨c'', hk'', hc.trans hc'⟩
    · exact fun _ _ _ _ _ h _ _ hk => h.sameCode hk
  exact hall c hk

theorem code_kept (h : qrDiscipline.Rely H s s') {k : Nat} {c : QrCode}
    (hlock : .lock (.code k) ∈ H) (hk : s.qrCodes.find? k = some c) :
    s'.qrCodes.find? k = some c :=
  rely_keeps (P := fun s => s.qrCodes.find? k = some c) hlock
    (fun _ _ _ h hnot => h.code_frame hnot) h hk

theorem unborn_kept (h : qrDiscipline.Rely H s s') {k : Nat} (hkey : .key k ∈ H)
    (hk : s.qrCodes.find? k = none) : s'.qrCodes.find? k = none :=
  rely_keeps (P := fun s => s.qrCodes.find? k = none) hkey
    (fun _ _ _ h hnot => h.unborn_frame hnot) h hk

theorem free_kept (h : qrDiscipline.Rely H s s') {target : QrTarget}
    (hlock : .lock (.target target) ∈ H) (hfree : liveCodes s target = []) :
    liveCodes s' target = [] :=
  rely_keeps (P := fun s => liveCodes s target = []) hlock
    (fun _ _ _ h hnot => h.free_frame hnot) h hfree

theorem new_kept (h : qrDiscipline.Rely H s s') {publicId : String}
    (hlock : .lock (.publicId publicId) ∈ H) (hnew : codesNamed s publicId = []) :
    codesNamed s' publicId = [] :=
  rely_keeps (P := fun s => codesNamed s publicId = []) hlock
    (fun _ _ _ h hnot => h.new_frame hnot) h hnew

end Rely

end Wbme.Qr

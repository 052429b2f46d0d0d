import Wbme.Qr.Commits

/-! # Codes in every run

Whatever goes on beside it, every operation commits what the discipline says. So a target never
has two codes that are not revoked, and what a scan of a revoked code answers is that it is
invalid, for good.
-/

namespace Wbme.Qr

open Lib QrService

/-! ## Programs -/

/-- Nothing is changed so far. -/
structure QrStart (d : QrDraft) (s : QrStore) : Prop where
  idle : d.Idle
  sound : CodesSound s

variable {publicId : String}

variable (env : QrEnvironment)

section Programs

variable {a : QrActivity} {d : QrDraft} {s s' : QrStore}

theorem QrStart.read (h : QrStart d s) (hs : qrDiscipline.Rely d.holds s s') :
    QrStart (d.execute s' [] id) s' := ⟨h.idle.execute s' [], hs.1⟩

theorem free_of_checks {v : QrStore} (code : QrCode) (conflict : String → Failure)
    (h : Txn.firstViolated
      [(!(codesNamed v code.publicId).isEmpty, conflict "qr_codes_public_id_key"),
        (!(liveCodes v code.target).isEmpty, conflict "qr_codes_target_active_unique")] = none) :
    codesNamed v code.publicId = [] ∧ liveCodes v code.target = [] := by
  unfold Txn.firstViolated at h
  cases hnamed : codesNamed v code.publicId with
  | cons p ps => simp [hnamed] at h
  | nil =>
      cases hlive : liveCodes v code.target with
      | cons p ps => simp [hnamed, hlive] at h
      | nil => exact ⟨rfl, rfl⟩

theorem allowedRun_createQrCode {code : QrCode} (hactive : code.status = .active)
    (conflict : String → Failure) (outcome : Nat → IdempotentOutcome QrReply) (h : QrStart d s) :
    AllowedRun qrDiscipline a (do
      let id ← createQrCode code conflict
      pure (outcome id)) d s := by
  refine (Txn.amid_bind _ _).mpr (Txn.amid_create fun s₁ n s₂ hs₁ hunused _ hs₂ hchecks => ?_)
  rw [h.idle s₂] at hchecks
  obtain ⟨hnew, hfree⟩ := free_of_checks code conflict hchecks
  intro s₃ hs₃
  rw [Draft.change_execute, Draft.change_draw, h.idle s₃]
  have hkey : Hold.key n ∈ ((d.draw n).execute s₂ [.publicId code.publicId, .target code.target]
      fun s => { s with qrCodes := s.qrCodes.insert n code }).holds := by simp
  refine .created n code hkey (by simp) (by simp) ?_ ?_ ?_ hactive rfl
  · exact unborn_kept hs₃ hkey (unborn_kept hs₂ List.mem_cons_self (hunused n (Nat.le_refl n)))
  · exact free_kept hs₃ (by simp) hfree
  · exact new_kept hs₃ (by simp) hnew

theorem allowedRun_create (dto : QrCodeCreateDto) (publicId : String) (h : QrStart d s) :
    AllowedRun qrDiscipline a (createRun env dto publicId) d s :=
  Txn.amid_guard_bind fun _ => allowedRun_createQrCode rfl _ _ h

/-- The row that an update of a status has found, and what stands in its way. -/
structure StatusTaken (id : Nat) (status : QrStatus) (d d' : QrDraft) (s' : QrStore)
    (c : QrCode) : Prop where
  sound : CodesSound s'
  row : s'.qrCodes.find? id = some c
  holds : d.holds ⊆ d'.holds
  lock : .lock (.code id) ∈ d'.holds
  target : c.status ≠ .revoked → .lock (.target c.target) ∈ d'.holds
  free : status ≠ .revoked → c.status ≠ .revoked
  change : ∀ t, d'.change t = { t with qrCodes := t.qrCodes.update id (.withStatus status) }

theorem amid_updateStatus (h : QrStart d s) (id : Nat) (status : QrStatus) :
    (updateStatus id status).amid qrDiscipline.Rely qrDiscipline.unused
      (fun _ d' s' => ∃ c, StatusTaken id status d d' s' c ∧ qrDiscipline.Rely d.holds s s')
      d s := by
  refine (Txn.amid_act _ _).mpr fun s₁ hs₁ _ c hc => ?_
  rw [h.idle s₁] at hc ⊢
  cases hrow : s₁.qrCodes.find? id with
  | none => simp [hrow] at hc
  | some qr =>
      simp only [hrow] at hc
      split at hc
      · cases hc
      · rename_i hfree
        obtain ⟨-, rfl⟩ := Prod.mk.inj (Except.ok.inj hc)
        have hsub : d.holds ⊆ d.holds ++ (statusLocks s₁ id status).map .lock :=
          fun _ hr => List.mem_append_left _ hr
        refine ⟨qr, ⟨hs₁.1, hrow, hsub, ?_, ?_, ?_, fun t => ?_⟩, hs₁⟩
        · refine List.mem_append_right _ (List.mem_map_of_mem ?_)
          simp only [statusLocks, hrow]
          split <;> exact List.mem_cons_self
        · intro hlive
          refine List.mem_append_right _ (List.mem_map_of_mem ?_)
          simp [statusLocks, hrow, hlive]
        · -- A revoked code has a successor, which the index puts in the way.
          intro hstatus hrevoked
          obtain ⟨m, e, hm, htarget, hlive⟩ := hs₁.1.successor id qr hrow hrevoked
          have hne : m ≠ id := by
            intro heq
            subst heq
            obtain rfl := Option.some.inj (hrow.symm.trans hm)
            exact hlive hrevoked
          have hmem := mem_liveCodes.mpr ⟨hm, htarget, hlive⟩
          apply hfree
          rw [Bool.and_eq_true]
          exact ⟨by simpa using hstatus,
            List.any_eq_true.mpr ⟨(m, e), hmem, by simpa using hne⟩⟩
        · rw [Draft.change_execute, h.idle t]

variable {id : Nat}

variable {status : QrStatus}

theorem StatusTaken.switched {d' : QrDraft} {c : QrCode} (h : StatusTaken id status d d' s c)
    (hstatus : status ≠ .revoked) (hs : qrDiscipline.Rely d'.holds s s') :
    QrEffect d'.holds s' (d'.change s') := by
  have hlive := h.free hstatus
  refine .switched id c status h.lock (h.target hlive) (code_kept hs h.lock h.row) hlive hstatus ?_
  rw [h.change s']

theorem allowedRun_switch (status : QrStatus) (hstatus : status ≠ .revoked)
    (outcome : IdempotentOutcome QrReply) (h : QrStart d s) :
    AllowedRun qrDiscipline a (do updateStatus id status; pure outcome) d s := by
  refine Txn.amid_seq (amid_updateStatus h id status) fun _ d₁ s₁ htaken => ?_
  obtain ⟨c, htaken, -⟩ := htaken
  exact fun s₂ hs₂ => htaken.switched hstatus hs₂

/-- The code that a regeneration replaces is not revoked: it would have another successor, and
the index would put that in the way of the new one. -/
theorem StatusTaken.live {d' : QrDraft} {c code : QrCode} (h : StatusTaken id .revoked d d' s c)
    (hs : qrDiscipline.Rely d'.holds s s') (hfree : liveCodes (d'.change s') code.target = [])
    (htarget : code.target = c.target) : c.status ≠ .revoked := by
  intro hrevoked
  have hrow := code_kept hs h.lock h.row
  obtain ⟨m, e, hm, hsame, hlive⟩ := hs.1.successor id c hrow hrevoked
  have hne : m ≠ id := by
    intro heq
    subst heq
    obtain rfl := Option.some.inj (hrow.symm.trans hm)
    exact hlive hrevoked
  refine hlive (revoked_of_free hfree (n := m) ?_ (hsame.trans htarget.symm))
  rw [h.change s', Table.find?_update_ne _ _ hne]
  exact hm

theorem new_of_update {s s' : QrStore}
    (hcodes : s'.qrCodes = s.qrCodes.update id (.withStatus status))
    (h : codesNamed s' publicId = []) : codesNamed s publicId = [] := by
  rw [List.eq_nil_iff_forall_not_mem]
  intro p hp
  obtain ⟨hp, hname⟩ := mem_codesNamed.mp hp
  by_cases hid : p.1 = id
  · refine ne_of_new h (n := id) (c := .withStatus status p.2) ?_ hname
    rw [hcodes, ← hid]
    exact Table.find?_update_of_find? hp _
  · refine ne_of_new h (n := p.1) (c := p.2) ?_ hname
    rw [hcodes, Table.find?_update_ne _ _ hid]
    exact hp

theorem allowedRun_regenerate {qr : QrCode} (publicId : String)
    (outcome : Nat → IdempotentOutcome QrReply) (h : QrStart d s)
    (hqr : s.qrCodes.find? id = some qr) :
    AllowedRun qrDiscipline a (do
      updateStatus id .revoked
      let row ← createQrCode ⟨publicId, qr.targetType, qr.targetId, .active⟩ .uniqueViolation
      pure (outcome row)) d s := by
  refine Txn.amid_seq (amid_updateStatus h id .revoked) fun _ d₁ s₁ htaken => ?_
  obtain ⟨c, htaken, hmoved⟩ := htaken
  obtain ⟨c', hc', hsame⟩ := sameCode_of_rely hmoved hqr
  obtain rfl := Option.some.inj (htaken.row.symm.trans hc')
  refine (Txn.amid_bind _ _).mpr (Txn.amid_create fun s₂ n s₃ hs₂ hunused _ hs₃ hchecks => ?_)
  obtain ⟨hnew, hfree⟩ := free_of_checks _ _ hchecks
  have hdrawn : d₁.holds ⊆ Hold.key n :: d₁.holds := fun _ hr => List.mem_cons_of_mem _ hr
  have hmoved₃ := hs₂.trans (hs₃.mono hdrawn)
  have hlive := htaken.live hmoved₃ hfree hsame.target.symm
  have hnew₃ : codesNamed s₃ publicId = [] := new_of_update (by rw [htaken.change s₃]) hnew
  intro s₄ hs₄
  have hkey : Hold.key n ∈ Hold.key n :: d₁.holds := List.mem_cons_self
  have hlocked : ∀ {r}, r ∈ Hold.key n :: d₁.holds → r ∈ (Hold.key n :: d₁.holds) ++
      [.lock (.publicId publicId), .lock (.target ⟨qr.targetType, qr.targetId.getD 0⟩)] :=
    fun hr => List.mem_append_left _ hr
  have hname : Hold.lock (QrLock.publicId publicId) ∈ (Hold.key n :: d₁.holds) ++
      [.lock (.publicId publicId), .lock (.target ⟨qr.targetType, qr.targetId.getD 0⟩)] :=
    List.mem_append_right _ List.mem_cons_self
  have hrow : s₄.qrCodes.find? id = some c :=
    code_kept hs₄ (hlocked (hdrawn htaken.lock)) (code_kept hmoved₃ htaken.lock htaken.row)
  have hnone : s₄.qrCodes.find? n = none :=
    unborn_kept hs₄ (hlocked hkey) (unborn_kept hs₃ hkey (hunused n (Nat.le_refl n)))
  refine .regenerated id n c publicId (hlocked (hdrawn htaken.lock))
    (hlocked (hdrawn (htaken.target hlive))) (hlocked hkey) hname hrow hlive hnone
    (new_kept hs₄ hname hnew₃) ?_
  rw [hsame.targetType, hsame.targetId]
  show ((d₁.change s₄).qrCodes.insert n _) = _
  rw [htaken.change s₄]

theorem allowedRun_action {id : Nat} (action : QrAction) (publicId : String) (h : QrStart d s) :
    AllowedRun qrDiscipline a (actionRun id action publicId) d s := by
  refine Txn.amid_query_bind fun s₁ hs₁ => Txn.amid_orThrow_bind fun qr hqr => ?_
  rw [h.idle s₁] at hqr
  refine Txn.amid_guard_bind fun _ => ?_
  have h₁ := h.read hs₁
  cases action with
  | disable => exact allowedRun_switch .disabled nofun _ h₁
  | enable => exact allowedRun_switch .active nofun _ h₁
  | regenerate => exact allowedRun_regenerate publicId _ h₁ hqr

theorem quiet_parse (env : QrEnvironment) (userId : Nat) (publicId : String) :
    (parse env userId publicId).Quiet := by
  refine (Txn.leaves_query _).bind fun found => (Txn.leaves_orThrow _ _).bind fun qr => ?_
  cases qr.targetType with
  | asset =>
      exact (Txn.leaves_orThrow _ _).bind fun _ => (Txn.leaves_orThrow _ _).bind fun _ =>
        (Txn.leaves_guard _ _).bind fun _ => Txn.leaves_pure _
  | inventoryItem =>
      exact (Txn.leaves_guard _ _).bind fun _ => (Txn.leaves_orThrow _ _).bind fun _ =>
        (Txn.leaves_orThrow _ _).bind fun _ => Txn.leaves_pure _
  | scanCatalog => exact (Txn.leaves_guard _ _).bind fun _ => Txn.leaves_pure _

theorem qrDiscipline_kept : qrDiscipline.Kept QrActivity.call := by
  intro a s hs
  have hrely : qrDiscipline.Rely [] s s := Discipline.Rely.refl hs
  have hquiet : ∀ {p : QrTx QrReply}, p.Quiet → qrDiscipline.Allowed a p .empty s := fun hp =>
    Discipline.allowed_of_quiet hp Draft.idle_empty fun x d s hd =>
      qrDiscipline_logs.idle a x d s hd
  obtain ⟨env, operator, operation, idempotencyKey, fingerprint⟩ := a
  cases operation with
  | create dto publicId =>
      constructor
      · exact allowed_executeIdempotentOperation qrDiscipline_logs _ Draft.idle_empty hrely
          fun d' s' hfrom => allowedRun_create env dto publicId ⟨hfrom.idle, hfrom.later.moved.1⟩
      · exact fun e p h => hquiet (quiet_replayAfterConflict qrLog _ e p h)
  | action id action publicId =>
      constructor
      · refine Txn.amid_query_bind fun s₁ hs₁ => Txn.amid_orThrow_bind fun targetType _ =>
          Txn.amid_guard_bind fun _ => ?_
        exact allowed_executeIdempotentOperation qrDiscipline_logs _
          (Draft.idle_empty.execute s₁ []) (Discipline.Rely.refl hs₁.1)
          fun d' s' hfrom => allowedRun_action action publicId ⟨hfrom.idle, hfrom.later.moved.1⟩
      · exact fun e p h => hquiet (quiet_replayAfterConflict qrLog _ e p h)
  | parse publicId => exact ⟨hquiet (quiet_parse env operator.id publicId), nofun⟩

end Programs

/-! ## Scans of a revoked code -/

def Revoked (s : QrStore) (publicId : String) : Prop :=
  ∃ n c, s.qrCodes.find? n = some c ∧ c.publicId = publicId ∧ c.status = .revoked

theorem QrEffect.revoked {H : List (Hold QrLock)} {s s' : QrStore} (h : QrEffect H s s')
    (hrevoked : Revoked s publicId) : Revoked s' publicId := by
  obtain ⟨n, c, hn, hname, hc⟩ := hrevoked
  obtain ⟨c', hn', hsame⟩ := h.sameCode hn
  exact ⟨n, c', hn', hsame.publicId.trans hname, hsame.revoked hc⟩

variable {s : QrStore}

theorem Revoked.not_found (h : Revoked s publicId) (hs : CodesSound s) :
    ((codesNamed s publicId).head?.map (·.2)).filter (fun qr => qr.status == .active) = none := by
  obtain ⟨n, c, hn, hname, hc⟩ := h
  rw [Option.filter_eq_none_iff]
  intro qr hqr
  obtain ⟨p, hp, rfl⟩ := Option.map_eq_some_iff.mp hqr
  obtain ⟨hfound, hsame⟩ := mem_codesNamed.mp (List.mem_of_head? hp)
  obtain rfl := hs.named n p.1 c p.2 hn hfound (hname.trans hsame.symm)
  obtain rfl := Option.some.inj (hn.symm.trans hfound)
  simp [hc]

/-- A session that scans a public id has not found it. -/
def Unresolved (publicId : String) (i : Nat) (b : QrDatabase) : Prop :=
  ∀ t, b.sessions.find? i = some t → t.activity.operation = .parse publicId →
    (t.program = t.activity.call.main ∧ t.draft = .empty) ∨ ∃ e, t.program = .throw e

section Runs

variable {b : QrDatabase} {publicId : String} {i : Nat}

theorem revoked_step (hsound : b.Sound qrDiscipline) (h : Revoked b.store publicId)
    (e : DatabaseEvent QrActivity) : Revoked (b.step QrActivity.call e).store publicId := by
  cases hc : b.committing e with
  | none =>
      rw [Database.store_step, hc]
      exact h
  | some tx =>
      obtain ⟨t, x⟩ := tx
      exact QrEffect.revoked (hsound.committed hc) h

theorem revoked_run (hsound : b.Sound qrDiscipline) (h : Revoked b.store publicId)
    (es : List (DatabaseEvent QrActivity)) : Revoked (b.run QrActivity.call es).store publicId := by
  induction es generalizing b with
  | nil => exact h
  | cons e es ih => exact ih (hsound.step qrDiscipline_kept e) (revoked_step hsound h e)

theorem parse_eq_throw (userId : Nat) (hsound : CodesSound s) (hrevoked : Revoked s publicId) :
    ∃ l c k, parse env userId publicId = .stmt l c k ∧ l s = [] ∧
      k s = .throw (.of .qrInvalid) := by
  refine ⟨_, _, _, rfl, rfl, ?_⟩
  show (Txn.orThrow (((codesNamed s publicId).head?.map (·.2)).filter
    fun qr => qr.status == .active) (Failure.of .qrInvalid) >>= _ : QrTx QrReply) = _
  rw [hrevoked.not_found hsound]
  rfl

theorem Unresolved.advance {t : Session QrStore QrLock Failure QrReply QrActivity}
    (h : Unresolved publicId i b) (hsound : b.Sound qrDiscipline)
    (hrevoked : Revoked b.store publicId) (hi : b.sessions.find? i = some t)
    (hparse : t.activity.operation = .parse publicId) :
    Unresolved publicId i (b.advance QrActivity.call i t) := by
  intro u hu _
  obtain ⟨⟨env, operator, operation, idempotencyKey, fingerprint⟩, program, draft, recovering⟩ := t
  obtain rfl : operation = .parse publicId := hparse
  rcases h _ hi rfl with ⟨hmain, hdraft⟩ | ⟨e, hthrow⟩
  · right
    obtain rfl : draft = .empty := hdraft
    obtain ⟨l, c, k, hstmt, hl, hk⟩ :=
      parse_eq_throw env operator.id hsound.invariant hrevoked
    obtain rfl : program = .stmt l c k := hmain.trans hstmt
    simp only [Database.advance, Draft.change_empty, hl, Database.isFree_nil, if_true,
      Table.find?_insert_self, Option.some.injEq] at hu
    subst hu
    exact ⟨_, hk⟩
  · obtain rfl : program = .throw e := hthrow
    have hgone : b.advance QrActivity.call i
        ⟨⟨env, operator, .parse publicId, idempotencyKey, fingerprint⟩, .throw e, draft,
          recovering⟩ = b.kill i := by
      cases recovering <;> rfl
    rw [hgone] at hu
    exact absurd rfl (Database.find?_kill hu).2

theorem unresolved_step (h : Unresolved publicId i b) (hsound : b.Sound qrDiscipline)
    (hrevoked : Revoked b.store publicId) (e : DatabaseEvent QrActivity) :
    Unresolved publicId i (b.step QrActivity.call e) := by
  cases e with
  | start j a =>
      simp only [Database.step, Database.start]
      split
      · exact h
      · intro t ht hparse
        rw [Table.find?_insert] at ht
        split at ht
        · obtain rfl := Option.some.inj ht
          exact .inl ⟨rfl, rfl⟩
        · exact h t ht hparse
  | kill j => exact fun t ht => h t (Database.find?_kill ht).1
  | advance j =>
      simp only [Database.step]
      cases hj : b.sessions.find? j with
      | none => exact h
      | some t =>
          by_cases hij : i = j
          · subst hij
            by_cases hparse : t.activity.operation = .parse publicId
            · exact h.advance hsound hrevoked hj hparse
            · intro u hu hparse'
              rw [Database.activity_advance hj hu] at hparse'
              exact absurd hparse' hparse
          · intro u hu
            rw [Database.find?_advance_ne QrActivity.call t hij] at hu
            exact h u hu

theorem unresolved_run (h : Unresolved publicId i b) (hsound : b.Sound qrDiscipline)
    (hrevoked : Revoked b.store publicId) (es : List (DatabaseEvent QrActivity)) :
    Unresolved publicId i (b.run QrActivity.call es) := by
  induction es generalizing b with
  | nil => exact h
  | cons e es ih =>
      exact ih (unresolved_step h hsound hrevoked e) (hsound.step qrDiscipline_kept e)
        (revoked_step hsound hrevoked e)

theorem Unresolved.not_committing {t : Session QrStore QrLock Failure QrReply QrActivity}
    {x : QrReply} (h : Unresolved publicId i b) (hc : b.committing (.advance i) = some (t, x)) :
    t.activity.operation ≠ .parse publicId := by
  intro hparse
  simp only [Database.committing] at hc
  cases hi : b.sessions.find? i with
  | none => simp [hi] at hc
  | some u =>
      simp only [hi] at hc
      cases hp : u.program with
      | pure y =>
          simp only [hp, Option.some.injEq, Prod.mk.injEq] at hc
          obtain ⟨rfl, rfl⟩ := hc
          rcases h u hi hparse with ⟨hmain, -⟩ | ⟨e, hthrow⟩
          · simp only [QrActivity.call, hparse, Call.single] at hmain
            cases hp.symm.trans hmain
          · cases hp.symm.trans hthrow
      | throw e => simp [hp] at hc
      | stmt l c k => simp [hp] at hc
      | fresh k => simp [hp] at hc

end Runs

theorem length_liveCodes_le_one (hs : CodesSound s) (target : QrTarget) :
    (liveCodes s target).length ≤ 1 := by
  have hsorted : (liveCodes s target).Pairwise (fun p q => p.1 < q.1) :=
    s.qrCodes.select_pairwise _
  have hone : ∀ p ∈ liveCodes s target, ∀ q ∈ liveCodes s target, p.1 = q.1 := by
    intro p hp q hq
    obtain ⟨hp, hpt, hplive⟩ := mem_liveCodes.mp hp
    obtain ⟨hq, hqt, hqlive⟩ := mem_liveCodes.mp hq
    exact hs.one p.1 q.1 p.2 q.2 hp hq hplive hqlive (hpt.trans hqt.symm)
  cases hcodes : liveCodes s target with
  | nil => exact Nat.zero_le 1
  | cons p ps =>
      cases ps with
      | nil => exact Nat.le_refl 1
      | cons q qs =>
          rw [hcodes] at hsorted hone
          have hlt : p.1 < q.1 := (List.pairwise_cons.mp hsorted).1 q List.mem_cons_self
          have heq := hone p List.mem_cons_self q (List.mem_cons_of_mem p List.mem_cons_self)
          omega

/-- In every run a target has at most one code that is not revoked, and once a code is revoked,
no scan that begins later resolves its public id, whatever is still under way. -/
theorem codes_lawful (n : Nat) (es fs : List (DatabaseEvent QrActivity)) :
    let b := (Database.init n .empty : QrDatabase).run QrActivity.call es
    let b' := b.run QrActivity.call fs
    (∀ target, (liveCodes b.store target).length ≤ 1) ∧
      ∀ publicId, Revoked b.store publicId →
        (∀ env userId k,
          (parse env userId publicId).run k b'.store = .error (.of .qrInvalid)) ∧
        ∀ i t x, b.sessions.find? i = none → b'.committing (.advance i) = some (t, x) →
          t.activity.operation ≠ .parse publicId := by
  intro b b'
  have hinit : (Database.init n .empty : QrDatabase).Sound qrDiscipline :=
    Database.sound_init codesSound_empty fun _ _ => rfl
  have hsound : b.Sound qrDiscipline := hinit.run qrDiscipline_kept es
  have hsound' : b'.Sound qrDiscipline := hsound.run qrDiscipline_kept fs
  refine ⟨length_liveCodes_le_one hsound.invariant, fun publicId hrevoked => ⟨?_, ?_⟩⟩
  · intro env userId k
    obtain ⟨l, c, next, hstmt, -, hnext⟩ := parse_eq_throw env userId hsound'.invariant
      (revoked_run hsound hrevoked fs)
    rw [hstmt]
    show (next b'.store).run k (c b'.store b'.store) = _
    rw [hnext]
    rfl
  · intro i t x hi hc
    have hunresolved : Unresolved publicId i b := by
      intro t ht
      cases hi.symm.trans ht
    exact (unresolved_run hunresolved hsound hrevoked fs).not_committing hc

/-! ## An enabling amid a regeneration -/

def openAccess : FunctionAccess := ⟨true, true, "asset", true, none⟩

def plainEnvironment : QrEnvironment where
  access _ _ := openAccess
  closureOfUser _ := []
  asset _ := none
  inventoryItem _ := none

def activityOf (operation : QrOperation) : QrActivity :=
  ⟨plainEnvironment, ⟨1, "operator", []⟩, operation, none, ""⟩

/-- A session from its begin to its end. -/
def session (i : Nat) (a : QrActivity) : List (DatabaseEvent QrActivity) :=
  .start i a :: List.replicate 12 (.advance i)

def enableAmidRegeneration : List (DatabaseEvent QrActivity) :=
  session 0 (activityOf (.create ⟨.scanCatalog, none, none⟩ "a")) ++
    [.start 1 (activityOf (.action 1 .enable "b")), .advance 1, .advance 1] ++
    session 2 (activityOf (.action 1 .regenerate "c")) ++ List.replicate 12 (.advance 1)

example : (((Database.init 1 .empty : QrDatabase).run QrActivity.call
    enableAmidRegeneration).store.qrCodes.rows.map fun p => (p.2.publicId, p.2.status)) =
      [("a", .revoked), ("c", .active)] := by
  decide +kernel

end Wbme.Qr

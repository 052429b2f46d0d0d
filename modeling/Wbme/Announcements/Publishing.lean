import Wbme.Announcements.Commits

/-! # What is on display

The index keeps the announcements on display to one in every run. The rest of what a display
promises rests on checks that an operation makes at its first look and does not repeat where it
writes: an announcement on display keeps its text, and a deleted one is not published, as long
as nobody publishes what another edits, or deletes what another publishes, in between.
-/

namespace Wbme.Announcements

open Lib AnnouncementService

/-! ## Programs -/

/-- Nothing is changed so far. -/
structure AnnouncementStart (d : AnnouncementDraft) (s : AnnouncementStore) : Prop where
  idle : d.Idle
  sound : OneDisplayed s

/-- What would be committed is what the activity may commit. -/
def Settled (a : AnnouncementActivity) (d : AnnouncementDraft) (s : AnnouncementStore) : Prop :=
  ∀ s', announcementDiscipline.Rely d.holds s s' → AnnouncementEffect a d.holds s' (d.change s')

section Programs

variable {a : AnnouncementActivity} {d : AnnouncementDraft} {s s' : AnnouncementStore}

theorem AnnouncementStart.read (h : AnnouncementStart d s)
    (hs : announcementDiscipline.Rely d.holds s s') :
    AnnouncementStart (d.execute s' [] id) s' := ⟨h.idle.execute s' [], hs.1⟩

theorem loggedRun_of_settled {run : AnnouncementTx (IdempotentOutcome AnnouncementReply)}
    (h : run.amid announcementDiscipline.Rely announcementDiscipline.unused
      (fun _ d s => Settled a d s) d s) :
    LoggedRun announcementLog announcementDiscipline a run d s :=
  Txn.amid_mono h fun _ _ _ hsettled _ s' _ _ hs hsub _ _ =>
    Or.inr (((hsettled s' hs).mono hsub).congr rfl)

theorem amid_findLive (h : AnnouncementStart d s) (id : Nat) :
    (findLive id).amid announcementDiscipline.Rely announcementDiscipline.unused
      (fun _ d' s' => AnnouncementStart d' s') d s :=
  Txn.amid_query_bind fun _ hs => Txn.amid_orThrow fun _ _ => h.read hs

/-- A row that was found and is held, with the change of it. -/
structure RowTaken (id : Nat) (f : Announcement → Announcement) (d : AnnouncementDraft)
    (s : AnnouncementStore) (x : Announcement) : Prop where
  row : s.announcements.find? id = some x
  lock : .lock (.row id) ∈ d.holds
  change : ∀ t, (d.change t).announcements = t.announcements.update id f

variable {v : AnnouncementStore}

theorem mem_rowLocks {id : Nat} {x : Announcement} (hx : v.announcements.find? id = some x) :
    .row id ∈ rowLocks v id := by
  simp only [rowLocks, hx]
  split <;> exact List.mem_cons_self

theorem amid_updateAnnouncement (h : AnnouncementStart d s) (id : Nat)
    (f : Announcement → Announcement) :
    (updateAnnouncement id f).amid announcementDiscipline.Rely announcementDiscipline.unused
      (fun _ d' s' => ∃ x, RowTaken id f d' s' x) d s := by
  refine (Txn.amid_act _ _).mpr fun s₁ hs₁ _ c hc => ?_
  rw [h.idle s₁] at hc ⊢
  cases hx : s₁.announcements.find? id with
  | none => simp [hx] at hc
  | some x =>
      simp only [hx, Except.ok.injEq, Prod.mk.injEq] at hc
      obtain ⟨-, rfl⟩ := hc
      refine ⟨x, hx, List.mem_append_right _ (List.mem_map_of_mem (mem_rowLocks hx)), fun t => ?_⟩
      rw [Draft.change_execute, h.idle t]

theorem loggedRun_create (ha : a.publishes = none) (dto : UpsertAnnouncementDto)
    (h : AnnouncementStart d s) :
    LoggedRun announcementLog announcementDiscipline a (createRun dto) d s := by
  refine loggedRun_of_settled ((Txn.amid_bind _ _).mpr (Txn.amid_create ?_))
  intro s₁ n s₂ _ hunused _ hs₂ _ s₃ hs₃
  have hkey : Hold.key n ∈ Hold.key n :: d.holds := List.mem_cons_self
  have hkey' : Hold.key n ∈ (Hold.key n :: d.holds) ++ ([] : List AnnouncementLock).map .lock :=
    List.mem_append_left _ hkey
  refine .created n ⟨dto.title, dto.content, .draft, none, none, none⟩ ha hkey' ?_ rfl ?_
  · exact unborn_kept hs₃ hkey' (unborn_kept hs₂ hkey (hunused n (Nat.le_refl n)))
  · rw [Draft.change_execute, Draft.change_draw, h.idle s₃]

theorem loggedRun_update (ha : a.publishes = none) (hedits : a.edits = true) (id : Nat)
    (dto : UpsertAnnouncementDto) (h : AnnouncementStart d s) :
    LoggedRun announcementLog announcementDiscipline a (updateRun id dto) d s := by
  refine loggedRun_of_settled (Txn.amid_seq (amid_findLive h id) fun existing d₁ s₁ h₁ => ?_)
  refine Txn.amid_guard_bind fun _ => ?_
  refine Txn.amid_seq (amid_updateAnnouncement h₁ id _) fun _ d₂ s₂ htaken s₃ hs₃ => ?_
  obtain ⟨x, htaken⟩ := htaken
  exact .edited id x dto.title dto.content ha hedits htaken.lock
    (row_kept hs₃ htaken.lock htaken.row) (htaken.change s₃)

theorem loggedRun_revoke (ha : a.publishes = none) (id : Nat) (h : AnnouncementStart d s) :
    LoggedRun announcementLog announcementDiscipline a (revokeRun id) d s := by
  refine loggedRun_of_settled (Txn.amid_seq (amid_findLive h id) fun existing d₁ s₁ h₁ => ?_)
  refine Txn.amid_seq (amid_updateAnnouncement h₁ id _) fun _ d₂ s₂ htaken s₃ hs₃ => ?_
  obtain ⟨x, htaken⟩ := htaken
  exact .revoked id x ha htaken.lock (row_kept hs₃ htaken.lock htaken.row) (htaken.change s₃)

structure RowsTaken (ids : List Nat) (f : Announcement → Announcement) (d : AnnouncementDraft) :
    Prop where
  locks : ∀ id ∈ ids, .lock (.row id) ∈ d.holds
  change : ∀ t, (d.change t).announcements =
    t.announcements.updateMany (fun id _ => ids.contains id) f

theorem amid_updateRows (h : AnnouncementStart d s) {rows : AnnouncementStore → List Nat}
    (hrows : ∀ v, ∀ id ∈ rows v, (v.announcements.find? id).isSome = true)
    (f : Announcement → Announcement) :
    (updateRows rows f).amid announcementDiscipline.Rely announcementDiscipline.unused
      (fun _ d' s' => RowsTaken (rows s') f d') d s := by
  refine (Txn.amid_exec _ _).mpr fun s₁ _ => ?_
  rw [h.idle s₁]
  refine ⟨fun id hid => ?_, fun t => ?_⟩
  · obtain ⟨x, hx⟩ := Option.isSome_iff_exists.mp (hrows s₁ id hid)
    exact List.mem_append_right _ (List.mem_map_of_mem
      (List.mem_flatMap.mpr ⟨id, hid, mem_rowLocks hx⟩))
  · rw [Draft.change_execute, h.idle t]

theorem loggedRun_batchDelete (ha : a.publishes = none) (now : Int) (ids : List Nat)
    (h : AnnouncementStart d s) :
    LoggedRun announcementLog announcementDiscipline a (batchDeleteRun now ids) d s := by
  refine loggedRun_of_settled (Txn.amid_query_bind fun s₁ hs₁ => Txn.amid_guard_bind fun _ => ?_)
  refine Txn.amid_seq (amid_updateRows (h.read hs₁) (fun v id hid => (List.mem_filter.mp hid).2) _)
    fun _ d₂ s₂ htaken s₃ hs₃ => ?_
  exact .deleted _ now ha htaken.locks (htaken.change s₃)

/-! ### Publishing -/

theorem amid_revokeOthers (h : AnnouncementStart d s) (id : Nat) :
    (revokeOthers id).amid announcementDiscipline.Rely announcementDiscipline.unused
      (fun _ d' _ => ∃ ids, RowsTaken ids .revoke d' ∧ id ∉ ids) d s := by
  refine Txn.amid_query_bind fun s₁ hs₁ => ?_
  refine Txn.amid_mono (amid_updateRows (h.read hs₁) ?_ _) ?_
  · intro v i hi
    have hany := (List.mem_filter.mp hi).2
    cases hx : v.announcements.find? i with
    | none => simp [hx] at hany
    | some x => rfl
  · intro _ d₂ s₂ htaken
    refine ⟨_, htaken, fun hid => ?_⟩
    have hmem := (List.mem_filter.mp hid).1
    simp [others] at hmem

theorem not_displayed_of_free {id k : Nat} {y : Announcement} (h : (others v id).isEmpty = true)
    (hy : v.announcements.find? k = some y) (hdisplayed : y.isDisplayed = true) : k = id := by
  by_contra hne
  have hmem : k ∈ others v id :=
    List.mem_filter.mpr ⟨List.mem_map.mpr ⟨(k, y), mem_displayed.mpr ⟨hy, hdisplayed⟩, rfl⟩,
      by simpa using hne⟩
  rw [List.isEmpty_iff.mp h] at hmem
  cases hmem

theorem RowsTaken.amid_displayTarget {ids : List Nat} {id : Nat} (h : RowsTaken ids .revoke d)
    (hnot : id ∉ ids) (ha : a.publishes = some id) (now : Int) (operatorId : Nat) :
    (displayTarget now operatorId id).amid announcementDiscipline.Rely
      announcementDiscipline.unused (fun _ d' s' => Settled a d' s') d s := by
  refine (Txn.amid_act _ _).mpr fun s₁ hs₁ _ c hc => ?_
  have hview : (d.change s₁).announcements.find? id = s₁.announcements.find? id := by
    rw [h.change s₁, find?_updateMany_ids, if_neg hnot]
  rw [hview] at hc ⊢
  cases hx : s₁.announcements.find? id with
  | none => simp [hx] at hc
  | some x =>
      simp only [hx] at hc
      split at hc
      · cases hc
      · rename_i hfree
        obtain ⟨-, rfl⟩ := Prod.mk.inj (Except.ok.inj hc)
        intro s₂ hs₂
        have hheld : ∀ {r}, r ∈ d.holds → r ∈ d.holds ++
            (if x.isLive = true then [AnnouncementLock.row id, .displayed]
              else [.row id]).map Hold.lock := fun hr => List.mem_append_left _ hr
        have hlock : Hold.lock (AnnouncementLock.row id) ∈ d.holds ++
            (if x.isLive = true then [AnnouncementLock.row id, .displayed]
              else [.row id]).map Hold.lock := by
          split <;> simp
        refine .published id x ids now operatorId ha hlock (fun i hi => hheld (h.locks i hi)) hnot
          (row_kept hs₂ hlock hx) (fun hlive => ?_) ?_
        · have hindex : Hold.lock AnnouncementLock.displayed ∈ d.holds ++
              (if x.isLive = true then [AnnouncementLock.row id, .displayed]
                else [.row id]).map Hold.lock := by
            simp [hlive]
          refine ⟨hindex, fun i y hy hdisplayed => ?_⟩
          obtain ⟨z, hz, hz'⟩ := displayed_kept hs₂ hindex hy hdisplayed
          by_cases hi : i ∈ ids
          · exact .inr hi
          · have hz₁ : (d.change s₁).announcements.find? i = some z := by
              rw [h.change s₁, find?_updateMany_ids, if_neg hi]
              exact hz
            have hempty : (others (d.change s₁) id).isEmpty = true := by
              simpa [hlive] using hfree
            exact .inl (not_displayed_of_free hempty hz₁ hz')
        · show ((d.change s₂).announcements.update id _) = _
          rw [h.change s₂]
          rfl

theorem loggedRun_publish {id : Nat} (ha : a.publishes = some id) (now : Int) (operatorId : Nat)
    (h : AnnouncementStart d s) :
    LoggedRun announcementLog announcementDiscipline a (publishRun now operatorId id) d s := by
  refine loggedRun_of_settled (Txn.amid_seq (amid_findLive h id) fun _ d₁ s₁ h₁ => ?_)
  refine Txn.amid_seq (amid_revokeOthers h₁ id) fun _ d₂ s₂ htaken => ?_
  obtain ⟨ids, htaken, hnot⟩ := htaken
  exact Txn.amid_seq (htaken.amid_displayTarget hnot ha now operatorId) fun _ _ _ hsettled =>
    hsettled

theorem announcementDiscipline_kept : announcementDiscipline.Kept AnnouncementActivity.call := by
  intro a s hs
  have hidle : ∀ (a : AnnouncementActivity) x d s, d.Idle →
      announcementDiscipline.commits a x d s s := fun _ _ _ _ _ => Or.inl rfl
  constructor
  · refine allowed_executeLogged hidle _ Draft.idle_empty (Discipline.Rely.refl hs)
      fun d' s' hfrom => ?_
    have h : AnnouncementStart d' s' := ⟨hfrom.idle, hfrom.later.moved.1⟩
    obtain ⟨now, operator, operation, idempotencyKey, fingerprint⟩ := a
    cases operation with
    | create dto => exact loggedRun_create rfl dto h
    | update id dto => exact loggedRun_update rfl rfl id dto h
    | publish id => exact loggedRun_publish rfl now operator.id h
    | revoke id => exact loggedRun_revoke rfl id h
    | batchDelete ids => exact loggedRun_batchDelete rfl now ids h
  · intro e p h
    exact Discipline.allowed_of_quiet (quiet_replayAfterConflict announcementLog _ e p h)
      Draft.idle_empty fun x d s hd => hidle a x d s hd

end Programs

/-! ## The law of the display -/

/-- One step of a run: nothing else is displayed beside what is, what is displayed keeps its
text, what is deleted is not published, and a publication displays its target. -/
structure DisplayLaw (b : AnnouncementDatabase) (e : DatabaseEvent AnnouncementActivity) :
    Prop where
  one : (displayed (b.step AnnouncementActivity.call e).store).length ≤ 1
  frozen : ∀ n x y, b.store.announcements.find? n = some x → x.isDisplayed = true →
    (b.step AnnouncementActivity.call e).store.announcements.find? n = some y →
      y.title = x.title ∧ y.content = x.content
  dead : ∀ n x, (b.step AnnouncementActivity.call e).store.announcements.find? n = some x →
    x.isLive = false → x.status ≠ .publishing
  /-- A replay changes nothing. -/
  success : ∀ t x n, b.committing e = some (t, x) → t.activity.publishes = some n →
    (b.step AnnouncementActivity.call e).store ≠ b.store →
      ∃ y, (b.step AnnouncementActivity.call e).store.announcements.find? n = some y ∧
        y.isDisplayed = true

/-- The law at every step of a run. -/
def DisplaySafe (b : AnnouncementDatabase) (es : List (DatabaseEvent AnnouncementActivity)) :
    Prop :=
  ∀ ps e qs, es = ps ++ e :: qs → DisplayLaw (b.run AnnouncementActivity.call ps) e

/-- What an edit or a publication has checked of its announcement still holds where it locks
the row: it is not on display, or it is not deleted. -/
def AsChecked (a : AnnouncementActivity) (_ : List AnnouncementStore) :
    AnnouncementLock → AnnouncementStore → Prop
  | .row id, s =>
      (a.edits = true → (s.announcements.find? id).any Announcement.isDisplayed = false) ∧
      (a.publishes = some id → (s.announcements.find? id).any Announcement.isLive = true)
  | _, _ => True

instance (a : AnnouncementActivity) (seen : List AnnouncementStore) (l : AnnouncementLock)
    (s : AnnouncementStore) : Decidable (AsChecked a seen l s) := by
  cases l <;> unfold AsChecked <;> infer_instance

/-- No deleted announcement is published. -/
def NoneDead (s : AnnouncementStore) : Prop :=
  ∀ n x, s.announcements.find? n = some x → x.isLive = false → x.status ≠ .publishing

section Law

variable {a : AnnouncementActivity} {H : List (Hold AnnouncementLock)} {s s' : AnnouncementStore}

theorem length_displayed_le_one (hs : OneDisplayed s) : (displayed s).length ≤ 1 := by
  have hsorted : (displayed s).Pairwise (fun p q => p.1 < q.1) := s.announcements.select_pairwise _
  have hone : ∀ p ∈ displayed s, ∀ q ∈ displayed s, p.1 = q.1 := by
    intro p hp q hq
    obtain ⟨hp, hp'⟩ := mem_displayed.mp hp
    obtain ⟨hq, hq'⟩ := mem_displayed.mp hq
    exact hs p.1 q.1 p.2 q.2 hp hq hp' hq'
  cases hrows : displayed s with
  | nil => exact Nat.zero_le 1
  | cons p ps =>
      cases ps with
      | nil => exact Nat.le_refl 1
      | cons q qs =>
          rw [hrows] at hsorted hone
          have hlt : p.1 < q.1 := (List.pairwise_cons.mp hsorted).1 q List.mem_cons_self
          have heq := hone p List.mem_cons_self q (List.mem_cons_of_mem p List.mem_cons_self)
          omega

theorem RowStep.frozen {seen : List AnnouncementStore} {n : Nat} {x y : Announcement}
    (h : RowStep a H n x y) (hx : s.announcements.find? n = some x)
    (hdisplayed : x.isDisplayed = true)
    (hchecked : .lock (.row n) ∈ H → AsChecked a seen (.row n) s) :
    y.title = x.title ∧ y.content = x.content := by
  cases h with
  | edited title content hedits hlock =>
      have hnot := (hchecked hlock).1 hedits
      simp [hx, hdisplayed] at hnot
  | same => exact ⟨rfl, rfl⟩
  | revoked hlock => exact ⟨rfl, rfl⟩
  | deleted now hlock => exact ⟨rfl, rfl⟩
  | published now operatorId ha hlock hlive => exact ⟨rfl, rfl⟩

theorem AnnouncementEffect.noneDead {seen : List AnnouncementStore}
    (h : AnnouncementEffect a H s s')
    (hchecked : ∀ n, .lock (.row n) ∈ H → AsChecked a seen (.row n) s) (hs : NoneDead s) :
    NoneDead s' := by
  intro n y hy hdead
  rcases h.origin hy with ⟨x, hx, hstep⟩ | ⟨-, -, hdraft⟩
  · cases hstep with
    | same => exact hs n y hx hdead
    | edited title content _ _ => exact hs n x hx hdead
    | revoked _ => exact nofun
    | deleted now _ => exact nofun
    | published now operatorId ha hlock _ =>
        have hlive := (hchecked n hlock).2 ha
        simp only [hx, Option.any_some] at hlive
        cases hdead.symm.trans hlive
  · rw [hdraft]
    exact nofun

theorem AnnouncementEffect.success {seen : List AnnouncementStore} {n : Nat}
    (h : AnnouncementEffect a H s s') (ha : a.publishes = some n)
    (hchecked : .lock (.row n) ∈ H → AsChecked a seen (.row n) s) :
    ∃ y, s'.announcements.find? n = some y ∧ y.isDisplayed = true := by
  cases h with
  | created _ _ hnot => cases hnot.symm.trans ha
  | edited _ _ _ _ hnot => cases hnot.symm.trans ha
  | revoked _ _ hnot => cases hnot.symm.trans ha
  | deleted _ _ hnot => cases hnot.symm.trans ha
  | published m x ids now operatorId hm hlock _ hnot hx _ hrows =>
      obtain rfl := Option.some.inj (hm.symm.trans ha)
      have hlive := (hchecked hlock).2 ha
      simp only [hx, Option.any_some] at hlive
      refine ⟨x.publish now operatorId, ?_, hlive⟩
      rw [hrows, display, Table.find?_update_self, find?_updateMany_ids, if_neg hnot, hx]
      rfl

theorem AnnouncementEffect.asChecked {seen : List AnnouncementStore} {a' : AnnouncementActivity}
    {l : AnnouncementLock} (h : AnnouncementEffect a H s s') (hlock : .lock l ∉ H)
    (hchecked : AsChecked a' seen l s) : AsChecked a' seen l s' := by
  cases l with
  | displayed => trivial
  | idempotency operatorId scope key => trivial
  | row id =>
      cases hx : s.announcements.find? id with
      | some x =>
          have hrow := h.row_frame hlock hx
          show (_ → (s'.announcements.find? id).any _ = _) ∧
            (_ → (s'.announcements.find? id).any _ = _)
          rw [hrow, ← hx]
          exact hchecked
      | none =>
          constructor
          · intro _
            rw [Option.any_eq_false]
            intro y hy
            rcases h.origin hy with ⟨x, hx', -⟩ | ⟨-, -, hdraft⟩
            · cases hx.symm.trans hx'
            · simp [Announcement.isDisplayed, hdraft]
          · intro ha
            have hlive := hchecked.2 ha
            simp [hx] at hlive

end Law

section Runs

variable {b : AnnouncementDatabase}

theorem held_step (hsound : b.Sound announcementDiscipline) (h : b.Held AsChecked)
    {e : DatabaseEvent AnnouncementActivity} (he : b.Acquires AsChecked e) :
    (b.step AnnouncementActivity.call e).Held AsChecked := by
  refine h.step hsound ?_ (fun a _ _ l _ hl => by cases l <;> exact hl) he
  intro a x d s s' a' seen l hcommit hapart hlocked
  rcases hcommit with rfl | heffect
  · exact hlocked
  · exact AnnouncementEffect.asChecked heffect hapart hlocked

theorem effect_of_step (hsound : b.Sound announcementDiscipline) (h : b.Held AsChecked)
    (e : DatabaseEvent AnnouncementActivity) :
    (b.step AnnouncementActivity.call e).store = b.store ∨
      ∃ t x, b.committing e = some (t, x) ∧
        AnnouncementEffect t.activity t.draft.holds b.store
          (b.step AnnouncementActivity.call e).store ∧
        ∀ n, .lock (.row n) ∈ t.draft.holds →
          AsChecked t.activity t.draft.seen (.row n) b.store := by
  cases hc : b.committing e with
  | none =>
      rw [Database.store_step, hc]
      exact .inl rfl
  | some tx =>
      obtain ⟨t, x⟩ := tx
      rcases hsound.committed hc with hsame | heffect
      · exact .inl hsame
      · exact .inr ⟨t, x, rfl, heffect, fun n hn => h.committing hc _ hn⟩

theorem displayLaw_of_step (hsound : b.Sound announcementDiscipline) (h : b.Held AsChecked)
    (hdead : NoneDead b.store) (e : DatabaseEvent AnnouncementActivity) : DisplayLaw b e := by
  have hone := length_displayed_le_one (hsound.step announcementDiscipline_kept e).invariant
  rcases effect_of_step hsound h e with hsame | ⟨t, x, hc, heffect, hchecked⟩
  · constructor
    · exact hone
    · intro n x y hx _ hy
      rw [hsame] at hy
      obtain rfl := Option.some.inj (hx.symm.trans hy)
      exact ⟨rfl, rfl⟩
    · rw [hsame]
      exact hdead
    · exact fun t x n _ _ hne => absurd hsame hne
  · constructor
    · exact hone
    · intro n x y hx hdisplayed hy
      obtain ⟨z, hz, hstep⟩ := heffect.rowStep hx
      obtain rfl := Option.some.inj (hz.symm.trans hy)
      exact hstep.frozen hx hdisplayed (hchecked n)
    · exact heffect.noneDead hchecked hdead
    · intro t' x' n hc' ha _
      obtain ⟨rfl, -⟩ := Prod.mk.inj (Option.some.inj (hc.symm.trans hc'))
      exact heffect.success ha (hchecked n)

/-- Where edits and publications write what they have checked, the law of the display holds at
every step. -/
theorem displaySafe_of_run (n : Nat) {es : List (DatabaseEvent AnnouncementActivity)}
    (hes : (Database.init n .empty : AnnouncementDatabase).Steps AnnouncementActivity.call
      (Database.Acquires AsChecked) es) :
    DisplaySafe (Database.init n .empty) es := by
  intro ps e qs heq
  subst heq
  have hinit : (Database.init n .empty : AnnouncementDatabase).Sound announcementDiscipline :=
    Database.sound_init oneDisplayed_empty fun _ _ => rfl
  obtain ⟨h, hdead⟩ := Database.Sound.run_induction announcementDiscipline_kept
    (I := fun b => b.Held AsChecked ∧ NoneDead b.store) (fun b e hsound hb he => by
      obtain ⟨h, hdead⟩ := hb
      exact ⟨held_step hsound h he, (displayLaw_of_step hsound h hdead e).dead⟩)
    hinit ⟨Database.held_init _ _ _, nofun⟩ ((Database.steps_append ps _).mp hes).1
  exact displayLaw_of_step (hinit.run announcementDiscipline_kept ps) h hdead e

/-- One announcement at most is on display in every run, whatever edits and publications miss. -/
theorem oneDisplayed_of_run (n : Nat) (es : List (DatabaseEvent AnnouncementActivity)) :
    OneDisplayed ((Database.init n .empty : AnnouncementDatabase).run AnnouncementActivity.call
      es).store :=
  ((Database.sound_init oneDisplayed_empty fun _ _ => rfl).run announcementDiscipline_kept
    es).invariant

end Runs

/-! ## A publication and a deletion -/

def activityOf (operation : AnnouncementOperation) : AnnouncementActivity :=
  ⟨0, ⟨1, "operator", []⟩, operation, none, ""⟩

def draft : AnnouncementActivity := activityOf (.create ⟨"maintenance", none, none⟩)

/-- A session from its begin to its end. -/
def session (i : Nat) (a : AnnouncementActivity) : List (DatabaseEvent AnnouncementActivity) :=
  .start i a :: List.replicate 10 (.advance i)

/-- A publication has found its target when the target is deleted. -/
def deleteAmidPublication : List (DatabaseEvent AnnouncementActivity) :=
  session 0 draft ++ [.start 1 (activityOf (.publish 1)), .advance 1] ++
    session 2 (activityOf (.batchDelete [1])) ++ List.replicate 9 (.advance 1)

theorem not_displaySafe_deleteAmidPublication :
    ¬ DisplaySafe (Database.init 1 .empty) (deleteAmidPublication ++ [.advance 1]) := by
  intro h
  have hrow : (((Database.init 1 .empty : AnnouncementDatabase).run AnnouncementActivity.call
      (deleteAmidPublication ++ [.advance 1])).store.announcements.find? 1).map
        (fun x => (x.isLive, x.status)) = some (false, .publishing) := by
    decide +kernel
  rw [Database.run_append] at hrow
  obtain ⟨x, hx, hxs⟩ := Option.map_eq_some_iff.mp hrow
  obtain ⟨hdead, hstatus⟩ := Prod.mk.inj hxs
  exact (h deleteAmidPublication (.advance 1) [] rfl).dead 1 x hx hdead hstatus

/-- An announcement that is published, withdrawn, edited and published again. -/
theorem displaySafe_in_order :
    DisplaySafe (Database.init 1 .empty) (session 0 draft ++
      session 1 (activityOf (.publish 1)) ++ session 2 (activityOf (.revoke 1)) ++
      session 3 (activityOf (.update 1 ⟨"all done", none, none⟩)) ++
      session 4 (activityOf (.publish 1))) :=
  displaySafe_of_run 1 (by decide +kernel)

end Wbme.Announcements

import Wbme.Images.Cleanup

/-! # Images in every run

The last look at an image and its removal are two calls, and nobody who names an image asks
whether it is still there. As long as nobody names an image, or uploads it anew, while the
cleanup is about to remove it or after it has, what is removed is old and named by nobody.
-/

namespace Wbme.Images

open Lib ImageState

namespace CleanupPhase

def round? : CleanupPhase → Option Round
  | .begun => none
  | .configured _ => none
  | .dated round => some round
  | .listed round _ => some round
  | .deciding round _ _ => some round
  | .confirmed round _ _ _ => some round
  | .unregistered round _ _ _ => some round

/-- The image that was found to be named by nobody. -/
def condemned? : CleanupPhase → Option String
  | .confirmed _ _ key _ => some key
  | .unregistered _ _ key _ => some key
  | _ => none

end CleanupPhase

/-- Among the objects that are left, an image is expired and not known to be named. -/
def Round.awaits (round : Round) (referenced : List String) (key : String)
    (objects : List (String × Option Int)) : Bool :=
  objects.any fun o => o.1 == key && (round.isExpired o.2 && !referenced.contains key)

/-- The images that a run of the cleanup may still remove. -/
def CleanupPhase.threatens (key : String) : CleanupPhase → Bool
  | .listed round objects => round.awaits [] key objects
  | .deciding round referenced objects => round.awaits referenced key objects
  | .confirmed round referenced condemned objects =>
      condemned == key || round.awaits referenced key objects
  | .unregistered round referenced condemned objects =>
      condemned == key || round.awaits referenced key objects
  | _ => false

/-! ## The law -/

/-- The rows that are not deleted and name an image. -/
def isKeyReferencedLive (s : ImageState) (key : String) : Bool :=
  !(s.assets.select fun _ x => x.imageOssKey == some key && x.isLive).isEmpty ||
    !(s.consumables.select fun _ x => x.imageOssKey == some key).isEmpty

/-- One step of a run: an object that the cleanup removes is named by no row and older than the
retention that the run has read, and no live row names an image that the cleanup has removed. -/
structure CleanupLaw (s : ImageState) (e : ImageEvent) : Prop where
  spares : ∀ i outcome round referenced key rest, e = .advanceCleanup i outcome →
    s.cleanups.find? i = some (.unregistered round referenced key rest) →
      s.isKeyReferenced key = false ∧ ∀ t, s.bucket.lastModified? key = some t →
        t + round.hours * hourMillis ≤ s.clock
  dangling : ∀ key ∈ (s.step e).removed, isKeyReferencedLive (s.step e) key = false

/-- Nobody commits a row with an image that the cleanup has removed, or that it has found to be
named by nobody and is about to remove; and nobody uploads an image that it may be about to
remove. -/
def isUndisturbed (s : ImageState) : ImageEvent → Bool
  | .advanceWriter i true =>
      match s.writers.find? i with
      | some ⟨write, true⟩ => write.image.all fun key =>
          !s.removed.contains key &&
            (s.cleanups.select fun _ p => p.condemned? == some key).isEmpty
      | _ => true
  | .put key => (s.cleanups.select fun _ p => p.threatens key).isEmpty
  | _ => true

/-! ## The invariant -/

structure PhaseSound (s : ImageState) (p : CleanupPhase) : Prop where
  condemned : ∀ key, p.condemned? = some key → s.isKeyReferenced key = false
  expired : ∀ key t, p.threatens key = true → s.bucket.lastModified? key = some t →
    ∃ round, p.round? = some round ∧ t ≤ round.cutoff
  cutoff : ∀ round, p.round? = some round → round.cutoff + round.hours * hourMillis ≤ s.clock

structure CleanupSound (s : ImageState) : Prop where
  removed : ∀ key ∈ s.removed, s.isKeyReferenced key = false
  phases : ∀ i p, s.cleanups.find? i = some p → PhaseSound s p

section References

variable {s : ImageState} {key : String}

variable {α : Type}

theorem select_isEmpty {t : Table α} {p : Nat → α → Bool} :
    (!(t.select p).isEmpty) = false ↔ ∀ n x, t.find? n = some x → p n x = false := by
  rw [Bool.not_eq_false', List.isEmpty_iff, List.eq_nil_iff_forall_not_mem]
  constructor
  · intro h n x hn
    cases hp : p n x with
    | false => rfl
    | true => exact absurd (Table.mem_select.mpr ⟨hn, hp⟩) (h (n, x))
  · intro h x hx
    obtain ⟨hfind, hp⟩ := Table.mem_select.mp hx
    rw [h x.1 x.2 hfind] at hp
    cases hp

theorem isKeyReferenced_eq_false_iff : s.isKeyReferenced key = false ↔
    (∀ n x, s.assets.find? n = some x → x.imageOssKey ≠ some key) ∧
      ∀ n x, s.consumables.find? n = some x → x.imageOssKey ≠ some key := by
  unfold isKeyReferenced
  rw [Bool.or_eq_false_iff, select_isEmpty, select_isEmpty]
  simp only [beq_eq_false_iff_ne]

theorem isKeyReferencedLive_of_not (h : s.isKeyReferenced key = false) :
    isKeyReferencedLive s key = false := by
  obtain ⟨hassets, hconsumables⟩ := isKeyReferenced_eq_false_iff.mp h
  unfold isKeyReferencedLive
  rw [Bool.or_eq_false_iff, select_isEmpty, select_isEmpty]
  exact ⟨fun n x hx => by simp [hassets n x hx], fun n x hx => by simp [hconsumables n x hx]⟩

theorem of_insert {t : Table α} {n : Nat} {y : α} {Q : α → Prop} (hy : Q y)
    (h : ∀ n x, t.find? n = some x → Q x) : ∀ m x, (t.insert n y).find? m = some x → Q x := by
  intro m x hx
  rw [Table.find?_insert] at hx
  split at hx
  · obtain rfl := Option.some.inj hx
    exact hy
  · exact h m x hx

theorem of_alter {t : Table α} {g : Nat → α → Option α} {Q : α → Prop}
    (hg : ∀ n x y, g n x = some y → Q x → Q y) (h : ∀ n x, t.find? n = some x → Q x) :
    ∀ m x, (t.alter g).find? m = some x → Q x := by
  intro m x hx
  rw [Table.find?_alter] at hx
  obtain ⟨y, hy, hgy⟩ := Option.bind_eq_some_iff.mp hx
  exact hg m y x hgy (h m y hy)

theorem isKeyReferenced_commit (write : ImageWrite) (h : s.isKeyReferenced key = false)
    (hne : write.image ≠ some key) : (write.commit s).isKeyReferenced key = false := by
  obtain ⟨hassets, hconsumables⟩ := isKeyReferenced_eq_false_iff.mp h
  rw [isKeyReferenced_eq_false_iff]
  cases write with
  | createAsset image =>
      exact ⟨of_insert (Q := fun x : AssetImage => x.imageOssKey ≠ some key) hne hassets,
        hconsumables⟩
  | updateAsset id image =>
      refine ⟨of_alter (Q := fun x : AssetImage => x.imageOssKey ≠ some key) ?_ hassets,
        hconsumables⟩
      intro n x y hy hx
      obtain rfl := Option.some.inj hy
      split
      · exact hne
      · exact hx
  | deleteAssets ids =>
      refine ⟨of_alter (Q := fun x : AssetImage => x.imageOssKey ≠ some key) ?_ hassets,
        hconsumables⟩
      intro n x y hy hx
      obtain rfl := Option.some.inj hy
      split
      · exact hx
      · exact hx
  | createConsumable image =>
      exact ⟨hassets,
        of_insert (Q := fun x : ConsumableImage => x.imageOssKey ≠ some key) hne hconsumables⟩
  | updateConsumable id image =>
      refine ⟨hassets,
        of_alter (Q := fun x : ConsumableImage => x.imageOssKey ≠ some key) ?_ hconsumables⟩
      intro n x y hy hx
      obtain rfl := Option.some.inj hy
      split
      · exact hne
      · exact hx
  | deleteConsumables ids =>
      refine ⟨hassets,
        of_alter (Q := fun x : ConsumableImage => x.imageOssKey ≠ some key) ?_ hconsumables⟩
      intro n x y hy hx
      dsimp only at hy
      split at hy
      · cases hy
      · obtain rfl := Option.some.inj hy
        exact hx

end References

section Calls

variable {s s' : ImageState} {p q : CleanupPhase} {key : String} {outcome : Outcome}

theorem PhaseSound.mono (h : PhaseSound s p) (hclock : s.clock ≤ s'.clock)
    (hreferences : ∀ key, p.condemned? = some key → s.isKeyReferenced key = false →
      s'.isKeyReferenced key = false)
    (hbucket : ∀ key t, p.threatens key = true → s'.bucket.lastModified? key = some t →
      s.bucket.lastModified? key = some t) : PhaseSound s' p where
  condemned key hkey := hreferences key hkey (h.condemned key hkey)
  expired key t hthreat ht := h.expired key t hthreat (hbucket key t hthreat ht)
  cutoff round hround := by
    have := h.cutoff round hround
    omega

theorem advance_state (p : CleanupPhase) (outcome : Outcome) (s : ImageState) :
    (p.advance outcome s).1 = s ∨ (∃ key, (p.advance outcome s).1 = s.unregister key) ∨
      ∃ key, p.condemned? = some key ∧ (p.advance outcome s).1 = s.deleteObject key := by
  cases p with
  | begun => exact .inl rfl
  | configured => exact .inl rfl
  | dated round =>
      left
      cases outcome <;> rfl
  | listed => exact .inl rfl
  | deciding round referenced objects =>
      left
      cases objects with
      | nil => rfl
      | cons object rest =>
          simp only [CleanupPhase.advance]
          split
          · rfl
          · split
            · rfl
            · rfl
  | confirmed round referenced key rest =>
      cases outcome with
      | answered => exact .inr (.inl ⟨key, rfl⟩)
      | failed => exact .inl rfl
      | replyLost => exact .inr (.inl ⟨key, rfl⟩)
  | unregistered round referenced key rest =>
      cases outcome with
      | answered => exact .inr (.inr ⟨key, rfl, rfl⟩)
      | failed => exact .inl rfl
      | replyLost => exact .inr (.inr ⟨key, rfl, rfl⟩)

theorem threatens_listed {round : Round} {untimed : List String} {t : Int}
    (h : (CleanupPhase.listed round (s.listPrefixWithMeta untimed)).threatens key = true)
    (ht : s.bucket.lastModified? key = some t) : t ≤ round.cutoff := by
  obtain ⟨o, ho, hexpired⟩ := List.any_eq_true.mp h
  obtain ⟨stored, hstored, rfl⟩ := List.mem_map.mp ho
  have hlast := Bucket.lastModified?_of_mem (List.mem_filter.mp hstored).1
  simp only [Bool.and_eq_true, beq_iff_eq] at hexpired
  obtain ⟨hkey, hexpired, -⟩ := hexpired
  rw [← hkey, hlast] at ht
  obtain rfl := Option.some.inj ht
  split at hexpired
  · cases hexpired
  · simpa [Round.isExpired] using hexpired

theorem awaits_cons {round : Round} {referenced : List String} {object : String × Option Int}
    {rest : List (String × Option Int)} :
    round.awaits referenced key (object :: rest) = true ↔
      object.1 = key ∧ round.isExpired object.2 = true ∧ key ∉ referenced ∨
        round.awaits referenced key rest = true := by
  simp [Round.awaits]

theorem PhaseSound.advance (h : PhaseSound s p) (hq : (p.advance outcome s).2 = some q) :
    PhaseSound s q := by
  cases p with
  | begun =>
      simp only [CleanupPhase.advance, Option.ite_none_right_eq_some, Option.some.injEq] at hq
      obtain ⟨-, rfl⟩ := hq
      exact ⟨nofun, nofun, nofun⟩
  | configured hours =>
      obtain rfl := Option.some.inj hq
      refine ⟨nofun, nofun, fun round hround => ?_⟩
      obtain rfl := Option.some.inj hround
      show s.clock - hours * hourMillis + hours * hourMillis ≤ s.clock
      omega
  | dated round =>
      cases outcome with
      | answered untimed =>
          simp only [CleanupPhase.advance, Option.ite_none_left_eq_some, Option.some.injEq] at hq
          obtain ⟨-, rfl⟩ := hq
          exact ⟨nofun, fun key t hthreat ht => ⟨round, rfl, threatens_listed hthreat ht⟩, h.cutoff⟩
      | failed => cases hq
      | replyLost => cases hq
  | listed round objects =>
      simp only [CleanupPhase.advance, Option.ite_none_right_eq_some, Option.some.injEq] at hq
      obtain ⟨-, rfl⟩ := hq
      refine ⟨nofun, fun key t hthreat ht => ?_, h.cutoff⟩
      refine h.expired key t ?_ ht
      obtain ⟨o, ho, hexpired⟩ := List.any_eq_true.mp hthreat
      simp only [Bool.and_eq_true] at hexpired
      exact List.any_eq_true.mpr ⟨o, ho, by simp [hexpired.1, hexpired.2.1]⟩
  | deciding round referenced objects =>
      cases objects with
      | nil => cases hq
      | cons object rest =>
          have hrest : PhaseSound s (.deciding round referenced rest) := by
            refine ⟨nofun, fun key t hthreat ht => h.expired key t ?_ ht, h.cutoff⟩
            exact awaits_cons.mpr (.inr hthreat)
          simp only [CleanupPhase.advance] at hq
          split at hq
          · obtain rfl := Option.some.inj hq
            exact hrest
          · rename_i hexpired
            split at hq
            · obtain rfl := Option.some.inj hq
              exact hrest
            · rename_i hfree
              obtain rfl := Option.some.inj hq
              simp only [Bool.not_eq_true, Bool.or_eq_false_iff] at hexpired hfree
              refine ⟨fun key hkey => ?_, fun key t hthreat ht => ?_, h.cutoff⟩
              · obtain rfl := Option.some.inj hkey
                exact hfree.2
              · refine h.expired key t ?_ ht
                simp only [CleanupPhase.threatens, Bool.or_eq_true, beq_iff_eq] at hthreat
                rcases hthreat with rfl | hlater
                · exact awaits_cons.mpr (.inl ⟨rfl, by simpa using hexpired.2,
                    by simpa using hexpired.1⟩)
                · exact awaits_cons.mpr (.inr hlater)
  | confirmed round referenced condemned rest =>
      cases outcome with
      | answered =>
          obtain rfl := Option.some.inj hq
          exact ⟨h.condemned, h.expired, h.cutoff⟩
      | failed => cases hq
      | replyLost => cases hq
  | unregistered round referenced condemned rest =>
      cases outcome with
      | answered =>
          obtain rfl := Option.some.inj hq
          refine ⟨nofun, fun key t hthreat ht => h.expired key t ?_ ht, h.cutoff⟩
          exact Bool.or_eq_true _ _ ▸ .inr hthreat
      | failed => cases hq
      | replyLost => cases hq

end Calls

section Steps

variable {s s' : ImageState} {e : ImageEvent}

theorem find?_setCleanup (i : Nat) (phase : Option CleanupPhase) (s : ImageState) (j : Nat) :
    (s.setCleanup i phase).cleanups.find? j = if j = i then phase else s.cleanups.find? j := by
  cases phase with
  | none =>
      show (s.cleanups.deleteMany fun j _ => j == i).find? j = _
      rw [Table.find?_deleteMany]
      by_cases hj : j = i
      · simp [hj]
      · simp [hj]
  | some phase => exact Table.find?_insert s.cleanups i phase j

theorem setCleanup_rest (i : Nat) (phase : Option CleanupPhase) (s : ImageState) :
    s.setCleanup i phase = { s with cleanups := (s.setCleanup i phase).cleanups } := by
  cases phase with
  | none => rfl
  | some phase => rfl

theorem CleanupSound.mono (h : CleanupSound s) (hphases : s'.cleanups = s.cleanups)
    (hclock : s.clock ≤ s'.clock) (hremoved : ∀ key ∈ s'.removed, key ∈ s.removed)
    (hreferences : ∀ key, key ∈ s.removed ∨
        (∃ i p, s.cleanups.find? i = some p ∧ p.condemned? = some key) →
      s.isKeyReferenced key = false → s'.isKeyReferenced key = false)
    (hbucket : ∀ i p key t, s.cleanups.find? i = some p → p.threatens key = true →
      s'.bucket.lastModified? key = some t → s.bucket.lastModified? key = some t) :
    CleanupSound s' where
  removed key hkey :=
    hreferences key (.inl (hremoved key hkey)) (h.removed key (hremoved key hkey))
  phases i p hp := by
    rw [hphases] at hp
    exact (h.phases i p hp).mono hclock (fun key hkey => hreferences key (.inr ⟨i, p, hp, hkey⟩))
      fun key t => hbucket i p key t hp

theorem CleanupSound.setCleanup (h : CleanupSound s) {i : Nat} {phase : Option CleanupPhase}
    (hphase : ∀ p, phase = some p → PhaseSound s p) : CleanupSound (s.setCleanup i phase) := by
  rw [setCleanup_rest]
  refine ⟨h.removed, fun j p hp => ?_⟩
  have hp : (s.setCleanup i phase).cleanups.find? j = some p := hp
  rw [find?_setCleanup] at hp
  have hsound : PhaseSound s p := by
    split at hp
    · exact hphase p hp
    · exact h.phases j p hp
  exact ⟨hsound.condemned, hsound.expired, hsound.cutoff⟩

theorem lastModified?_of_delete {b : Bucket} {key other : String} {t : Int}
    (h : (b.delete key).lastModified? other = some t) : b.lastModified? other = some t := by
  by_cases hkey : other = key
  · subst hkey
    simp at h
  · rwa [b.lastModified?_delete_ne hkey] at h

theorem CleanupSound.advanceCleanup (h : CleanupSound s) {i : Nat} {p : CleanupPhase}
    (hp : s.cleanups.find? i = some p) (outcome : Outcome) :
    CleanupSound ((p.advance outcome s).1.setCleanup i (p.advance outcome s).2) := by
  have hnext : ∀ q, (p.advance outcome s).2 = some q → PhaseSound s q :=
    fun q hq => (h.phases i p hp).advance hq
  rcases advance_state p outcome s with hs | ⟨key, hs⟩ | ⟨key, hkey, hs⟩
  · rw [hs]
    exact h.setCleanup hnext
  · rw [hs]
    refine CleanupSound.setCleanup (s := s.unregister key) ?_ fun q hq => ?_
    · exact h.mono rfl (Int.le_refl _) (fun _ hmem => hmem) (fun _ _ hfree => hfree)
        fun _ _ _ _ _ _ ht => ht
    · exact (hnext q hq).mono (Int.le_refl _) (fun _ _ hfree => hfree) fun _ _ _ ht => ht
  · rw [hs]
    have hbucket : ∀ other t, (s.deleteObject key).bucket.lastModified? other = some t →
        s.bucket.lastModified? other = some t := fun other t ht => lastModified?_of_delete ht
    refine CleanupSound.setCleanup (s := s.deleteObject key) ⟨?_, fun j q hq => ?_⟩
      fun q hq => ?_
    · intro other hother
      show s.isKeyReferenced other = false
      have hother : other ∈ if (s.bucket.lastModified? key).isSome then key :: s.removed
        else s.removed := hother
      split at hother
      · rcases List.mem_cons.mp hother with rfl | hother
        · exact (h.phases i p hp).condemned other hkey
        · exact h.removed other hother
      · exact h.removed other hother
    · exact (h.phases j q hq).mono (Int.le_refl _) (fun _ _ hfree => hfree)
        fun other t _ => hbucket other t
    · exact (hnext q hq).mono (Int.le_refl _) (fun _ _ hfree => hfree)
        fun other t _ => hbucket other t

theorem CleanupSound.quiet (h : CleanupSound s) (hphases : s'.cleanups = s.cleanups)
    (hclock : s.clock ≤ s'.clock) (hremoved : s'.removed = s.removed)
    (hassets : s'.assets = s.assets) (hconsumables : s'.consumables = s.consumables)
    (hbucket : ∀ key t, s'.bucket.lastModified? key = some t →
      s.bucket.lastModified? key = some t) : CleanupSound s' := by
  refine h.mono hphases hclock (fun key hkey => hremoved ▸ hkey) (fun key _ hfree => ?_)
    fun _ _ key t _ _ => hbucket key t
  unfold isKeyReferenced at hfree ⊢
  rwa [hassets, hconsumables]

theorem commit_rest (write : ImageWrite) (s : ImageState) :
    write.commit s = { s with
      assets := (write.commit s).assets
      consumables := (write.commit s).consumables
      sequence := (write.commit s).sequence } := by
  cases write with
  | createAsset image => rfl
  | updateAsset id image => rfl
  | deleteAssets ids => rfl
  | createConsumable image => rfl
  | updateConsumable id image => rfl
  | deleteConsumables ids => rfl

theorem CleanupSound.commit (h : CleanupSound s) {write : ImageWrite}
    (himage : ∀ key, write.image = some key → key ∉ s.removed ∧
      ∀ i p, s.cleanups.find? i = some p → p.condemned? ≠ some key) :
    CleanupSound (write.commit s) := by
  have hreferences : ∀ key, key ∈ s.removed ∨
      (∃ i p, s.cleanups.find? i = some p ∧ p.condemned? = some key) →
      s.isKeyReferenced key = false → (write.commit s).isKeyReferenced key = false := by
    intro key hwhy hfree
    refine isKeyReferenced_commit write hfree fun hkey => ?_
    rcases hwhy with hremoved | ⟨i, p, hp, hcondemned⟩
    · exact (himage key hkey).1 hremoved
    · exact (himage key hkey).2 i p hp hcondemned
  rw [commit_rest] at hreferences ⊢
  exact h.mono rfl (Int.le_refl _) (fun _ hkey => hkey) hreferences fun _ _ _ _ _ _ ht => ht

theorem CleanupSound.endWriter (h : CleanupSound s) (i : Nat) : CleanupSound (s.endWriter i) :=
  h.quiet rfl (Int.le_refl _) rfl rfl rfl fun _ _ ht => ht

theorem CleanupSound.advanceWriter (h : CleanupSound s) {i : Nat} {w : Writer} {passes : Bool}
    (hw : s.writers.find? i = some w) (hu : isUndisturbed s (.advanceWriter i passes) = true) :
    CleanupSound (s.advanceWriter i passes w) := by
  obtain ⟨write, found⟩ := w
  unfold ImageState.advanceWriter
  cases passes with
  | false => exact h.endWriter i
  | true =>
      cases found with
      | true =>
          refine CleanupSound.endWriter (CleanupSound.commit h fun key hkey => ?_) i
          simp only [isUndisturbed, hw, hkey, Option.all_some, Bool.and_eq_true,
            Bool.not_eq_true', List.contains_eq_mem, decide_eq_false_iff_not] at hu
          refine ⟨hu.1, fun j p hp => ?_⟩
          have hnone := select_isEmpty.mp ((Bool.not_eq_false' _).mpr hu.2) j p hp
          simpa using hnone
      | false =>
          simp only [Bool.not_true, Bool.false_eq_true, if_false]
          split
          · exact h.quiet rfl (Int.le_refl _) rfl rfl rfl fun _ _ ht => ht
          · exact h.endWriter i

theorem CleanupSound.put (h : CleanupSound s) {key : String}
    (hu : isUndisturbed s (.put key) = true) : CleanupSound (s.step (.put key)) := by
  refine h.mono rfl (Int.le_refl _) (fun other hother => (List.mem_filter.mp hother).1)
    (fun _ _ hfree => hfree) fun i p other t hp hthreat ht => ?_
  have hnone := select_isEmpty.mp ((Bool.not_eq_false' _).mpr hu) i p hp
  have hne : other ≠ key := by
    rintro rfl
    rw [hnone] at hthreat
    cases hthreat
  rw [← s.bucket.lastModified?_put_ne s.clock hne]
  exact ht

theorem CleanupSound.step (h : CleanupSound s) (hu : isUndisturbed s e = true) :
    CleanupSound (s.step e) := by
  cases e with
  | pass d =>
      refine h.quiet rfl ?_ rfl rfl rfl fun _ _ ht => ht
      show s.clock ≤ s.clock + d
      omega
  | startCleanup i =>
      simp only [ImageState.step]
      split
      · exact h
      · refine h.setCleanup fun p hp => ?_
        obtain rfl := Option.some.inj hp
        constructor
        · nofun
        · nofun
        · nofun
  | advanceCleanup i outcome =>
      cases hp : s.cleanups.find? i with
      | none => simpa only [ImageState.step, hp] using h
      | some p => simpa only [ImageState.step, hp] using h.advanceCleanup hp outcome
  | crash i =>
      show CleanupSound (s.setCleanup i none)
      exact h.setCleanup fun p hp => nomatch hp
  | startWriter i write =>
      simp only [ImageState.step]
      split
      · exact h
      · exact h.quiet rfl (Int.le_refl _) rfl rfl rfl fun _ _ ht => ht
  | advanceWriter i passes =>
      cases hw : s.writers.find? i with
      | none => simpa only [ImageState.step, hw] using h
      | some w => simpa only [ImageState.step, hw] using h.advanceWriter hw hu
  | put key => exact h.put hu
  | register key => exact h.quiet rfl (Int.le_refl _) rfl rfl rfl fun _ _ ht => ht
  | discard key =>
      exact h.quiet rfl (Int.le_refl _) rfl rfl rfl fun _ _ ht => lastModified?_of_delete ht
  | configure retention => exact h.quiet rfl (Int.le_refl _) rfl rfl rfl fun _ _ ht => ht

theorem CleanupSound.law (h : CleanupSound s) (hu : isUndisturbed s e = true) : CleanupLaw s e where
  spares i outcome round referenced key rest _ hp := by
    have hsound := h.phases i _ hp
    refine ⟨hsound.condemned key rfl, fun t ht => ?_⟩
    have hthreat : (CleanupPhase.unregistered round referenced key rest).threatens key = true := by
      simp [CleanupPhase.threatens]
    obtain ⟨_, hround, hle⟩ := hsound.expired key t hthreat ht
    obtain rfl := Option.some.inj hround
    have := hsound.cutoff _ rfl
    omega
  dangling key hkey := isKeyReferencedLive_of_not ((h.step hu).removed key hkey)

end Steps

/-! ## Runs -/

/-- No cleanup under way, and nothing removed by one so far. -/
def ImageState.fresh (s : ImageState) : ImageState :=
  { s with cleanups := .empty, removed := [] }

theorem cleanupSound_fresh (s : ImageState) : CleanupSound s.fresh := ⟨nofun, nofun⟩

/-- In a run that nobody disturbs, the cleanup removes only what is old and named by nobody, and
nobody names what it has removed. -/
theorem cleanupLaw_of_run (s : ImageState) (es : List ImageEvent)
    (h : Along ImageState.step (isUndisturbed · · = true) s.fresh es) :
    Along ImageState.step CleanupLaw s.fresh es :=
  h.strengthen (cleanupSound_fresh s) (fun _ _ hsound hu => hsound.step hu)
    fun _ _ hsound hu => hsound.law hu

def dayOldImage : ImageState where
  clock := 24 * hourMillis
  retention := none
  assets := .empty
  consumables := .empty
  imageObjects := ["images/a"]
  bucket := Bucket.empty.put "images/a" 0
  removed := []
  sequence := 1
  cleanups := .empty
  writers := .empty

/-- A run of the cleanup to the removal of the image, with what happens after the last look. -/
def cleanupAround (amid : List ImageEvent) : List ImageEvent :=
  .startCleanup 0 :: List.replicate 5 (.advanceCleanup 0 (.answered [])) ++ amid ++
    List.replicate 2 (.advanceCleanup 0 (.answered []))

/-- An asset that names the image. -/
def nameImage : List ImageEvent :=
  [.startWriter 0 (.createAsset (some "images/a")), .advanceWriter 0 true, .advanceWriter 0 true]

theorem cleanupLaw_upload_amid :
    Along ImageState.step CleanupLaw dayOldImage.fresh
      (cleanupAround [.put "images/b", .register "images/b",
        .startWriter 0 (.createAsset (some "images/b")), .advanceWriter 0 true,
        .advanceWriter 0 true]) ∧
      ((cleanupAround [.put "images/b"]).foldl ImageState.step dayOldImage.fresh).removed =
        ["images/a"] :=
  ⟨cleanupLaw_of_run dayOldImage _ (by decide +kernel), by decide +kernel⟩

/-- An image is named after the last look at it, and removed. -/
theorem not_cleanupLaw_named_amid :
    ¬ Along ImageState.step CleanupLaw dayOldImage.fresh (cleanupAround nameImage) := by
  intro h
  have hsplit : cleanupAround nameImage = (cleanupAround nameImage).dropLast ++
      .advanceCleanup 0 (.answered []) :: [] := by decide
  rw [hsplit] at h
  have hlive := (h.at_split).dangling "images/a" (by decide +kernel)
  exact absurd hlive (by decide +kernel)

end Wbme.Images

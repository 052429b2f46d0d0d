import Wbme.Backups.Retention

/-! # A cleanup that runs by itself

The rows come under the names of their columns, and the cleanup reads them under other names: it
deletes what has no name, which fails, and so it keeps every record with its objects. That is
right only where a deletion of an object or a manifest would have failed as well.
-/

namespace Wbme.Backups

open Lib

/-! ## Runs -/

inductive Deletion where
  | done
  | refused
  | replyLost
deriving DecidableEq

def Deletion.takesEffect : Deletion → Bool
  | .refused => false
  | _ => true

/-- What a run meets: a restore under way or not, the time, and how the deletion of each key
ends, and that of no key at all. -/
structure RetentionOutside where
  restoring : Bool
  now : Nat
  deletion : ObjectKey → Deletion
  keyless : Deletion

abbrev RetentionRun := ExceptT String (StateM BackupStore)

namespace RetentionOutside

def deletionOf (o : RetentionOutside) : KeyField → Deletion
  | .key path => o.deletion path
  | _ => o.keyless

/-- What a deletion leaves, if it takes effect. -/
def afterDeletion (s : BackupStore) : KeyField → BackupStore
  | .key path => { s with bucket := s.bucket.delete path }
  | _ => s

def deleteObject (o : RetentionOutside) (field : KeyField) : RetentionRun Unit := do
  match o.deletionOf field with
  | .done => modify (afterDeletion · field)
  | .refused => throw "deleteObject"
  | .replyLost => do
      modify (afterDeletion · field)
      throw "deleteObject"

def calls (o : RetentionOutside) : BackupCalls RetentionRun where
  createFileStorage := pure ()
  activeRestore := pure o.restoring
  queryBackups f := f <$> get
  queryIds f := f <$> get
  query f := modify f
  listPrefixWithMeta := (fun s => s.bucket.objects) <$> get
  deleteObject := o.deleteObject
  now := pure o.now

/-- What one run of the cleanup leaves. -/
def deleteOldBackups (o : RetentionOutside) (before : Nat) (s : BackupStore) : BackupStore :=
  ((o.calls.deleteOldBackups before).run s).2

end RetentionOutside

/-! ## What a cleanup promises -/

def Backup.objectKeys (r : Backup) : List ObjectKey :=
  r.ossObjectKey.toList ++ r.ossManifestKey.toList

/-- An expired record is left just where the deletion of an object or a manifest of it fails;
what is removed leaves no object; other records are as they were, and so are the objects of
those that are successful. -/
structure RetentionLaw (o : RetentionOutside) (before : Nat) (s s' : BackupStore) : Prop where
  kept_iff : ∀ id r, s.backups.find? id = some r → isExpired before r = true →
    ((s'.backups.find? id).isSome = true ↔ ∃ key ∈ r.objectKeys, o.deletion key ≠ .done)
  removed : ∀ id r, s.backups.find? id = some r → s'.backups.find? id = none →
    ∀ key ∈ r.objectKeys, s'.bucket.find? key = none
  rows : ∀ id, s'.backups.find? id = s.backups.find? id ∨
    (s'.backups.find? id = none ∧ (s.backups.find? id).any (isExpired before) = true)
  others : ∀ id r, s.backups.find? id = some r → r.status = .succeeded →
    isExpired before r = false → ∀ key ∈ r.objectKeys, s'.bucket.find? key = s.bucket.find? key

/-- Every expired record names an object whose deletion fails, and no record that is successful
and not expired names an object that looks like an orphan and is deleted as one. -/
structure NothingRemovable (o : RetentionOutside) (before : Nat) (s : BackupStore) : Prop where
  failing : ∀ id r, s.backups.find? id = some r → isExpired before r = true →
    ∃ key ∈ r.objectKeys, o.deletion key ≠ .done
  owned : o.restoring = false → ∀ id r, s.backups.find? id = some r → r.status = .succeeded →
    isExpired before r = false → ∀ x ∈ s.bucket.objects, x.1 ∈ r.objectKeys →
      (o.deletion x.1).takesEffect = true →
        isOrphan (succeededAmong s s.bucket.backupIds) o.now x = false

section Deletions

variable {o : RetentionOutside} {s : BackupStore} {key : ObjectKey}

/-- What a deletion that is reported as a warning leaves. -/
def RetentionOutside.swept (o : RetentionOutside) (s : BackupStore) (key : ObjectKey) :
    BackupStore :=
  if (o.deletion key).takesEffect then { s with bucket := s.bucket.delete key } else s

theorem deleteOrphan_run (o : RetentionOutside) (s : BackupStore) (key : ObjectKey) :
    (o.calls.deleteOrphan key).run s = (.ok (), o.swept s key) := by
  unfold BackupCalls.deleteOrphan RetentionOutside.swept
  show (tryCatch (o.deleteObject (.key key)) _ : RetentionRun Unit).run s = _
  unfold RetentionOutside.deleteObject
  show (tryCatch (match o.deletion key with | .done => _ | .refused => _ | .replyLost => _) _ :
    RetentionRun Unit).run s = _
  cases o.deletion key with
  | done => rfl
  | refused => rfl
  | replyLost => rfl

theorem run_bind_of_ok {α β : Type} {p : RetentionRun α} {q : α → RetentionRun β} {a : α}
    {s s' : BackupStore} (h : p.run s = (.ok a, s')) : (p >>= q).run s = (q a).run s' := by
  show (ExceptT.bind p q) s = _
  have h : p s = (.ok a, s') := h
  simp only [ExceptT.bind, ExceptT.mk, bind, StateT.bind, h]
  rfl

theorem run_bind_of_error {α β : Type} {p : RetentionRun α} {q : α → RetentionRun β}
    {message : String} {s s' : BackupStore} (h : p.run s = (.error message, s')) :
    (p >>= q).run s = (.error message, s') := by
  show (ExceptT.bind p q) s = _
  have h : p s = (.error message, s') := h
  simp only [ExceptT.bind, ExceptT.mk, bind, StateT.bind, h]
  rfl

theorem run_tryCatch_of_error {α : Type} {p : RetentionRun α} {q : String → RetentionRun α}
    {message : String} {s s' : BackupStore} (h : p.run s = (.error message, s')) :
    (tryCatch p q).run s = (q message).run s' := by
  show (ExceptT.tryCatch p q) s = _
  have h : p s = (.error message, s') := h
  simp only [ExceptT.tryCatch, ExceptT.mk, bind, StateT.bind, h]
  rfl

theorem forM_deleteOrphan_run (keys : List ObjectKey) (s : BackupStore) :
    (keys.forM o.calls.deleteOrphan).run s = (.ok (), keys.foldl o.swept s) := by
  induction keys generalizing s with
  | nil => rfl
  | cons key keys ih =>
      show (o.calls.deleteOrphan key >>= fun _ => keys.forM o.calls.deleteOrphan).run s = _
      rw [run_bind_of_ok (deleteOrphan_run o s key), ih]
      rfl

theorem backups_foldl_swept (keys : List ObjectKey) (s : BackupStore) :
    (keys.foldl o.swept s).backups = s.backups := by
  induction keys generalizing s with
  | nil => rfl
  | cons k keys ih =>
      rw [List.foldl_cons, ih]
      unfold RetentionOutside.swept
      split <;> rfl

theorem find?_swept (k : ObjectKey) :
    (o.swept s k).bucket.find? key =
      if key = k ∧ (o.deletion key).takesEffect = true then none else s.bucket.find? key := by
  unfold RetentionOutside.swept
  by_cases hk : key = k
  · subst hk
    by_cases heffect : (o.deletion key).takesEffect = true
    · simp [heffect]
    · simp [heffect]
  · have hne : ¬ (key = k ∧ (o.deletion key).takesEffect = true) := fun hand => hk hand.1
    rw [if_neg hne]
    split
    · exact Bucket.find?_delete_ne hk
    · rfl

theorem find?_foldl_swept (keys : List ObjectKey) (s : BackupStore) :
    (keys.foldl o.swept s).bucket.find? key =
      if key ∈ keys ∧ (o.deletion key).takesEffect = true then none
      else s.bucket.find? key := by
  induction keys generalizing s with
  | nil => simp
  | cons k keys ih =>
      rw [List.foldl_cons, ih, find?_swept]
      cases (o.deletion key).takesEffect with
      | false => simp
      | true =>
          by_cases hk : key = k
          · simp [hk]
          · simp [hk]

/-! ### The two parts of the cleanup -/

def RetentionOutside.orphanKeys (o : RetentionOutside) (s : BackupStore) : List ObjectKey :=
  if o.restoring then []
  else (s.bucket.objects.filter (isOrphan (succeededAmong s s.bucket.backupIds) o.now)).map (·.1)

theorem orphanKeys_of_no_folder (h : s.bucket.backupIds.isEmpty = true) : o.orphanKeys s = [] := by
  unfold RetentionOutside.orphanKeys
  split
  · rfl
  · rw [List.map_eq_nil_iff, List.filter_eq_nil_iff]
    intro x hx horphan
    obtain ⟨path, object⟩ := x
    cases path with
    | other path => cases horphan
    | backup id name =>
        have hmem : id ∈ s.bucket.backupIds :=
          List.mem_dedup.mpr (List.mem_filterMap.mpr ⟨_, hx, rfl⟩)
        rw [List.isEmpty_iff.mp h] at hmem
        cases hmem

theorem activeRestore_run (o : RetentionOutside) (s : BackupStore) :
    o.calls.activeRestore.run s = (.ok o.restoring, s) := rfl

theorem listPrefixWithMeta_run (o : RetentionOutside) (s : BackupStore) :
    o.calls.listPrefixWithMeta.run s = (.ok s.bucket.objects, s) := rfl

theorem queryIds_run (o : RetentionOutside) (f : BackupStore → List Nat) (s : BackupStore) :
    (o.calls.queryIds f).run s = (.ok (f s), s) := rfl

theorem queryBackups_run (o : RetentionOutside) (f : BackupStore → List SelectedBackup)
    (s : BackupStore) : (o.calls.queryBackups f).run s = (.ok (f s), s) := rfl

theorem now_run (o : RetentionOutside) (s : BackupStore) : o.calls.now.run s = (.ok o.now, s) := rfl

theorem scanOrphanBackupObjects_run (o : RetentionOutside) (s : BackupStore) :
    o.calls.scanOrphanBackupObjects.run s = (.ok (), (o.orphanKeys s).foldl o.swept s) := by
  unfold BackupCalls.scanOrphanBackupObjects
  rw [run_bind_of_ok (activeRestore_run o s)]
  cases hrestoring : o.restoring with
  | true =>
      have hnone : o.orphanKeys s = [] := by simp [RetentionOutside.orphanKeys, hrestoring]
      rw [hnone]
      rfl
  | false =>
      simp only [Bool.false_eq_true, if_false]
      rw [run_bind_of_ok (listPrefixWithMeta_run o s)]
      show (if s.bucket.backupIds.isEmpty = true then _ else _ : RetentionRun Unit).run s = _
      split
      · rename_i hempty
        rw [orphanKeys_of_no_folder hempty]
        rfl
      · rw [run_bind_of_ok (queryIds_run o _ s), run_bind_of_ok (now_run o s),
          forM_deleteOrphan_run]
        have hkeys : o.orphanKeys s = (s.bucket.objects.filter
            (isOrphan (succeededAmong s s.bucket.backupIds) o.now)).map (·.1) := by
          simp [RetentionOutside.orphanKeys, hrestoring]
        rw [hkeys]
        rfl

theorem deleteObjectsOf_run (h : o.keyless ≠ .done) (deletableIds : List Nat)
    (row : SelectedBackup) (s : BackupStore) :
    (o.calls.deleteObjectsOf deletableIds row).run s = (.ok deletableIds, s) := by
  have hthrow : (o.calls.deleteObject .undefined).run s = (.error "deleteObject", s) := by
    show (o.deleteObject .undefined).run s = _
    unfold RetentionOutside.deleteObject RetentionOutside.deletionOf
    cases hkeyless : o.keyless with
    | done => exact absurd hkeyless h
    | refused => rfl
    | replyLost => rfl
  exact run_tryCatch_of_error (run_bind_of_error (run_bind_of_error hthrow))

theorem foldlM_deleteObjectsOf_run (h : o.keyless ≠ .done) (rows : List SelectedBackup)
    (deletableIds : List Nat) (s : BackupStore) :
    (rows.foldlM o.calls.deleteObjectsOf deletableIds).run s = (.ok deletableIds, s) := by
  induction rows with
  | nil => rfl
  | cons row rows ih =>
      rw [List.foldlM_cons, run_bind_of_ok (deleteObjectsOf_run h deletableIds row s), ih]

theorem deleteOldBackups_eq (h : o.keyless ≠ .done) (before : Nat) (s : BackupStore) :
    o.deleteOldBackups before s = (o.orphanKeys s).foldl o.swept s := by
  unfold RetentionOutside.deleteOldBackups BackupCalls.deleteOldBackups
  have hcreate : o.calls.createFileStorage.run s = (.ok (), s) := rfl
  rw [run_bind_of_ok hcreate, run_bind_of_ok (queryBackups_run o _ s),
    run_bind_of_ok (foldlM_deleteObjectsOf_run h _ [] s)]
  show (o.calls.scanOrphanBackupObjects.run s).2 = _
  rw [scanOrphanBackupObjects_run]

end Deletions

/-! ## What holds -/

/-- A cleanup keeps its promises just where there is nothing to remove. -/
theorem retentionLaw_iff (o : RetentionOutside) (hkeyless : o.keyless ≠ .done) (before : Nat)
    (s : BackupStore) :
    RetentionLaw o before s (o.deleteOldBackups before s) ↔ NothingRemovable o before s := by
  rw [deleteOldBackups_eq hkeyless]
  have hrows : ∀ id, ((o.orphanKeys s).foldl o.swept s).backups.find? id = s.backups.find? id :=
    fun id => by rw [backups_foldl_swept]
  constructor
  · intro h
    refine ⟨fun id r hr hexpired => ?_, fun hrestoring id r hr hsucceeded hfresh x hx hkey
      heffect => ?_⟩
    · exact (h.kept_iff id r hr hexpired).mp (by rw [hrows, hr]; rfl)
    · by_contra horphan
      have hmem : x.1 ∈ o.orphanKeys s := by
        unfold RetentionOutside.orphanKeys
        rw [if_neg (by simp [hrestoring])]
        exact List.mem_map_of_mem (List.mem_filter.mpr ⟨hx, by simpa using horphan⟩)
      have hsame := h.others id r hr hsucceeded hfresh x.1 hkey
      rw [find?_foldl_swept, if_pos ⟨hmem, heffect⟩] at hsame
      have hstored : (s.bucket.find? x.1).isSome = true := by
        rw [Bucket.find?, Option.isSome_map, List.find?_isSome]
        exact ⟨x, hx, beq_self_eq_true _⟩
      rw [← hsame] at hstored
      cases hstored
  · intro h
    refine ⟨fun id r hr hexpired => ?_, fun id r hr hnone => ?_, fun id => .inl (hrows id),
      fun id r hr hsucceeded hfresh key hkey => ?_⟩
    · rw [hrows, hr]
      exact ⟨fun _ => h.failing id r hr hexpired, fun _ => rfl⟩
    · rw [hrows, hr] at hnone
      cases hnone
    · rw [find?_foldl_swept, if_neg]
      rintro ⟨hmem, heffect⟩
      unfold RetentionOutside.orphanKeys at hmem
      split at hmem
      · cases hmem
      · rename_i hrestoring
        obtain ⟨x, hx, rfl⟩ := List.mem_map.mp hmem
        obtain ⟨hstored, horphan⟩ := List.mem_filter.mp hx
        have hnot := h.owned (by simpa using hrestoring) id r hr hsucceeded hfresh x hstored hkey
          heffect
        rw [hnot] at horphan
        cases horphan

def oldBackup : BackupStore where
  backups := Table.empty.insert 1 ⟨some 7, .scheduled, .succeeded, 1000, none, some 3, some "sum",
    some (dumpKey 1), some (manifestKey 1), none⟩
  sequence := 2
  bucket := (Bucket.put ⟨[], []⟩ (dumpKey 1) ⟨.bytes [1, 2, 3], 1000⟩).put (manifestKey 1)
    ⟨.json .null, 1000⟩

def aDayAfter (deletion : ObjectKey → Deletion) : RetentionOutside where
  restoring := false
  now := 1000 + dayMillis + 1
  deletion
  keyless := .refused

theorem retentionLaw_manifest_refused :
    RetentionLaw (aDayAfter fun key => if key = manifestKey 1 then .refused else .done) 2000
      oldBackup (RetentionOutside.deleteOldBackups
        (aDayAfter fun key => if key = manifestKey 1 then .refused else .done) 2000 oldBackup) := by
  refine (retentionLaw_iff _ (by decide) 2000 oldBackup).mpr ⟨fun id r hr _ => ?_, ?_⟩
  · have hr : (Table.insert .empty 1 _).find? id = some r := hr
    rw [Table.find?_insert] at hr
    split at hr
    · obtain rfl := Option.some.inj hr
      exact ⟨manifestKey 1, by decide, by decide⟩
    · cases hr
  · intro _ id r hr _ hfresh
    have hr : (Table.insert .empty 1 _).find? id = some r := hr
    rw [Table.find?_insert] at hr
    split at hr
    · obtain rfl := Option.some.inj hr
      cases hfresh
    · cases hr

/-- The old backup stays, although both of its objects could be deleted. -/
theorem not_retentionLaw_oldBackup :
    ¬ RetentionLaw (aDayAfter fun _ => .done) 2000 oldBackup
      (RetentionOutside.deleteOldBackups (aDayAfter fun _ => .done) 2000 oldBackup) := by
  intro h
  obtain ⟨key, -, hfails⟩ := (h.kept_iff 1 _ rfl rfl).mp (by decide +kernel)
  exact hfails rfl

end Wbme.Backups

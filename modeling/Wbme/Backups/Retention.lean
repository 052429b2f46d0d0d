import Wbme.Backups.Store

/-! # What is too old

After a backup the worker removes the backups that are past their retention: the objects first,
then the records, and last the objects of which nothing tells. What it calls is given: it is one
program for a worker among others and for a cleanup that runs by itself.
-/

namespace Wbme.Backups

open Lib

universe u

/-! ## Rows -/

inductive KeyField where
  | undefined
  | null
  | key (path : ObjectKey)
deriving DecidableEq

def KeyField.ofColumn : Option ObjectKey → KeyField
  | none => .null
  | some path => .key path

/-- A row that was selected, under the names of its columns. -/
structure SelectedBackup where
  id : Nat
  ossObjectKey : Option ObjectKey
  ossManifestKey : Option ObjectKey

def Backup.selected (id : Nat) (r : Backup) : SelectedBackup :=
  ⟨id, r.ossObjectKey, r.ossManifestKey⟩

/-- The client leaves the names of the columns as they are. -/
def SelectedBackup.field (row : SelectedBackup) : String → KeyField
  | "oss_object_key" => .ofColumn row.ossObjectKey
  | "oss_manifest_key" => .ofColumn row.ossManifestKey
  | _ => .undefined

def SelectedBackup.keys (row : SelectedBackup) : List KeyField :=
  [row.field "objectKey", row.field "manifestKey"].filter (· != .null)

/-! ## Calls -/

structure BackupCalls (m : Type → Type u) where
  createFileStorage : m Unit
  /-- Is a restore under way? -/
  activeRestore : m Bool
  queryBackups : (BackupStore → List SelectedBackup) → m (List SelectedBackup)
  queryIds : (BackupStore → List Nat) → m (List Nat)
  query : (BackupStore → BackupStore) → m Unit
  listPrefixWithMeta : m (List (ObjectKey × StoredObject))
  deleteObject : KeyField → m Unit
  now : m Nat

def dayMillis : Nat := 24 * 60 * 60 * 1000

/-- Is an object in the folder of a backup that has no successful record, and older than a day? -/
def isOrphan (known : List Nat) (now : Nat) (x : ObjectKey × StoredObject) : Bool :=
  match x.1 with
  | .backup id _ =>
      !known.contains id && decide (0 < x.2.lastModified ∧ x.2.lastModified + dayMillis < now)
  | .other _ => false

def succeededAmong (s : BackupStore) (ids : List Nat) : List Nat :=
  (s.backups.select fun id r => ids.contains id && r.status == .succeeded).map (·.1)

/-- Was a backup that is not an emergency one successful before a time? -/
def isExpired (before : Nat) (r : Backup) : Bool :=
  r.status == .succeeded && decide (r.backupTime < before) && r.taskType != .emergency

def expiredRows (before : Nat) (s : BackupStore) : List SelectedBackup :=
  (s.backups.select fun _ r => isExpired before r).map fun x => x.2.selected x.1

def deleteBackups (ids : List Nat) (s : BackupStore) : BackupStore :=
  { s with backups := s.backups.deleteMany fun id _ => ids.contains id }

namespace BackupCalls

variable {m : Type → Type u} [Monad m] [MonadExceptOf String m] (calls : BackupCalls m)

def deleteOrphan (key : ObjectKey) : m Unit :=
  tryCatch (calls.deleteObject (.key key)) fun _ => pure ()

def scanOrphanBackupObjects : m Unit := do
  if ← calls.activeRestore then pure ()
  else do
    let items ← calls.listPrefixWithMeta
    let backupIds := Bucket.backupIds ⟨items, []⟩
    if backupIds.isEmpty then pure ()
    else do
      let known ← calls.queryIds fun s => succeededAmong s backupIds
      let now ← calls.now
      ((items.filter (isOrphan known now)).map (·.1)).forM calls.deleteOrphan

/-- The objects of one record are deleted; where that fails the record is kept. -/
def deleteObjectsOf (deletableIds : List Nat) (row : SelectedBackup) : m (List Nat) :=
  tryCatch
    (do
      row.keys.forM calls.deleteObject
      pure (deletableIds ++ [row.id]))
    fun _ => pure deletableIds

def deleteOldBackups (before : Nat) : m Unit := do
  calls.createFileStorage
  let rows ← calls.queryBackups (expiredRows before)
  let deletableIds ← rows.foldlM calls.deleteObjectsOf []
  if deletableIds.isEmpty then pure ()
  else calls.query (deleteBackups deletableIds)
  calls.scanOrphanBackupObjects

end BackupCalls

end Wbme.Backups

import Wbme.Lib.Table
import Wbme.Lib.Process
import Wbme.Contracts

/-! # Backups and the bucket they are in

A backup has a record in the database and two objects in the bucket: the dump, and a manifest
that says what the dump is. The database may be replaced by an older one, the bucket is not.
-/

namespace Wbme.Backups

open Lib

/-! ## Objects -/

/-- The name of an object: below the folder of a backup, or anywhere else. -/
inductive ObjectKey where
  | backup (backupId : Nat) (name : String)
  | other (path : String)
deriving DecidableEq

def dumpKey (backupId : Nat) : ObjectKey := .backup backupId "dump.fc"

def manifestKey (backupId : Nat) : ObjectKey := .backup backupId "manifest.json"

inductive Content where
  | bytes (bytes : List UInt8)
  | json (value : Json)

structure StoredObject where
  content : Content
  lastModified : Nat

structure Bucket where
  objects : List (ObjectKey × StoredObject)
  deleted : List ObjectKey

namespace Bucket

def find? (b : Bucket) (key : ObjectKey) : Option StoredObject :=
  (b.objects.find? fun x => x.1 == key).map (·.2)

def put (b : Bucket) (key : ObjectKey) (object : StoredObject) : Bucket :=
  { b with objects := (key, object) :: b.objects.filter fun x => x.1 != key }

def delete (b : Bucket) (key : ObjectKey) : Bucket :=
  ⟨b.objects.filter fun x => x.1 != key, key :: b.deleted⟩

def backupIds (b : Bucket) : List Nat :=
  (b.objects.filterMap fun x =>
    match x.1 with
    | .backup id _ => some id
    | .other _ => none).dedup

section Lemmas

variable {b : Bucket} {key key' : ObjectKey} {object : StoredObject}

theorem find?_filter_ne (objects : List (ObjectKey × StoredObject)) (h : key' ≠ key) :
    (objects.filter fun x => x.1 != key).find? (fun x => x.1 == key') =
      objects.find? fun x => x.1 == key' := by
  induction objects with
  | nil => rfl
  | cons x rest ih =>
      by_cases hx : x.1 = key
      · have hne : x.1 ≠ key' := fun heq => h (heq.symm.trans hx)
        simp [hx, ih, Ne.symm h]
      · by_cases hx' : x.1 = key' <;> simp [hx, hx', ih, h]

@[simp] theorem find?_put_self : (b.put key object).find? key = some object := by
  simp [find?, put]

@[simp] theorem find?_delete_self : (b.delete key).find? key = none := by
  simp [find?, delete]

theorem find?_delete_ne (h : key' ≠ key) : (b.delete key).find? key' = b.find? key' := by
  simp [find?, delete, find?_filter_ne _ h]

@[simp] theorem deleted_put : (b.put key object).deleted = b.deleted := rfl

@[simp] theorem deleted_delete : (b.delete key).deleted = key :: b.deleted := rfl

end Lemmas

end Bucket

/-! ## Records -/

inductive BackupType where
  | scheduled
  | immediate
  | emergency
deriving DecidableEq

def BackupType.code : BackupType → String
  | .scheduled => "SCHEDULED"
  | .immediate => "IMMEDIATE"
  | .emergency => "EMERGENCY"

inductive BackupStatus where
  | running
  | succeeded
  | failed
deriving DecidableEq

structure Backup where
  taskUuid : Option Nat
  taskType : BackupType
  status : BackupStatus
  backupTime : Nat
  pgVersion : Option String
  fileSize : Option Nat
  checksum : Option String
  ossObjectKey : Option ObjectKey
  ossManifestKey : Option ObjectKey
  error : Option String

structure BackupStore where
  backups : Table Backup
  sequence : Nat
  bucket : Bucket

end Wbme.Backups

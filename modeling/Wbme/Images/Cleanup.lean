import Mathlib.Data.List.Nodup
import Wbme.Lib.Along
import Wbme.Lib.Table

/-! # Cleaning up images

An image is uploaded to the bucket first and named by an asset or a consumable later. A worker
removes the images that nothing names and that are old enough: it lists the bucket, reads what is
named, looks once more at the single image, and removes first its registration and then the
object. Between any two of its calls the others go on.
-/

namespace Wbme.Images

open Lib

/-! ## The bucket -/

structure StoredImage where
  key : String
  lastModified : Int

structure Bucket where
  objects : List StoredImage
  distinct : (objects.map (·.key)).Nodup

namespace Bucket

def empty : Bucket := ⟨[], List.nodup_nil⟩

def lastModified? (b : Bucket) (key : String) : Option Int :=
  (b.objects.find? fun o => o.key == key).map (·.lastModified)

def delete (b : Bucket) (key : String) : Bucket where
  objects := b.objects.filter fun o => o.key != key
  distinct := b.distinct.sublist (List.filter_sublist.map _)

def put (b : Bucket) (key : String) (now : Int) : Bucket where
  objects := ⟨key, now⟩ :: (b.delete key).objects
  distinct := by
    refine List.nodup_cons.mpr ⟨fun hmem => ?_, (b.delete key).distinct⟩
    obtain ⟨o, ho, hkey⟩ := List.mem_map.mp hmem
    simpa [hkey] using (List.mem_filter.mp ho).2

theorem lastModified?_of_mem {b : Bucket} {o : StoredImage} (h : o ∈ b.objects) :
    b.lastModified? o.key = some o.lastModified := by
  obtain ⟨objects, distinct⟩ := b
  show (objects.find? fun p => p.key == o.key).map (·.lastModified) = _
  induction objects with
  | nil => cases h
  | cons p rest ih =>
      obtain ⟨hp, hrest⟩ := List.nodup_cons.mp distinct
      rcases List.mem_cons.mp h with rfl | hmem
      · simp
      · have hne : (p.key == o.key) = false := by
          rw [beq_eq_false_iff_ne]
          intro heq
          have hp : p.key ∉ rest.map (·.key) := hp
          rw [heq] at hp
          exact hp (List.mem_map_of_mem hmem)
        rw [List.find?_cons_of_neg (by simp [hne])]
        exact ih hrest hmem

variable (b : Bucket)

@[simp] theorem lastModified?_delete_self (key : String) :
    (b.delete key).lastModified? key = none := by
  simp [lastModified?, delete, List.find?_eq_none]

theorem lastModified?_delete_ne {key other : String} (hne : other ≠ key) :
    (b.delete key).lastModified? other = b.lastModified? other := by
  show ((b.objects.filter _).find? _).map _ = (b.objects.find? _).map _
  rw [List.find?_filter]
  congr 2
  funext o
  by_cases ho : o.key = other
  · simp [ho, hne]
  · simp [ho]

theorem lastModified?_put_ne {key other : String} (now : Int) (hne : other ≠ key) :
    (b.put key now).lastModified? other = b.lastModified? other := by
  rw [← b.lastModified?_delete_ne hne]
  show ((⟨key, now⟩ :: (b.delete key).objects).find? _).map _ = _
  rw [List.find?_cons_of_neg (by simpa using Ne.symm hne)]
  rfl

end Bucket

/-! ## Rows -/

structure AssetImage where
  imageOssKey : Option String
  isLive : Bool

structure ConsumableImage where
  imageOssKey : Option String

/-- What a transaction does to the rows that name images. -/
inductive ImageWrite where
  | createAsset (imageOssKey : Option String)
  | updateAsset (id : Nat) (imageOssKey : Option String)
  | deleteAssets (ids : List Nat)
  | createConsumable (imageOssKey : Option String)
  | updateConsumable (id : Nat) (imageOssKey : Option String)
  | deleteConsumables (ids : List Nat)
deriving DecidableEq

/-- The image that a transaction names. -/
def ImageWrite.image : ImageWrite → Option String
  | .createAsset key => key
  | .updateAsset _ key => key
  | .createConsumable key => key
  | .updateConsumable _ key => key
  | .deleteAssets _ => none
  | .deleteConsumables _ => none

/-- A transaction under way, before or after it looked for its rows. -/
structure Writer where
  write : ImageWrite
  found : Bool

/-! ## The cleanup -/

/-- The retention that a run of the cleanup read, and the time before which it removes. -/
structure Round where
  hours : Int
  cutoff : Int

/-- Where a run of the cleanup is, before its next call. -/
inductive CleanupPhase where
  | begun
  | configured (hours : Int)
  | dated (round : Round)
  | listed (round : Round) (objects : List (String × Option Int))
  | deciding (round : Round) (referenced : List String) (objects : List (String × Option Int))
  | confirmed (round : Round) (referenced : List String) (key : String)
      (objects : List (String × Option Int))
  | unregistered (round : Round) (referenced : List String) (key : String)
      (objects : List (String × Option Int))

/-- How a call of the database or the bucket ends: it answers, the time of some objects being
unknown; it fails before it takes effect; or it takes effect and the answer is lost. -/
inductive Outcome where
  | answered (untimed : List String)
  | failed
  | replyLost
deriving DecidableEq

def Outcome.isAnswered : Outcome → Bool
  | .answered _ => true
  | _ => false

structure ImageState where
  clock : Int
  /-- The number that the setting of the retention says, if it is one. -/
  retention : Option Int
  assets : Table AssetImage
  consumables : Table ConsumableImage
  imageObjects : List String
  bucket : Bucket
  /-- The keys whose objects the cleanup has removed and nobody has put back; no code reads
  them. -/
  removed : List String
  sequence : Nat
  cleanups : Table CleanupPhase
  writers : Table Writer

namespace ImageState

def hourMillis : Int := 60 * 60 * 1000

def imagePrefix : String := "images/"

/-- A missing or an odd setting counts as a day. -/
def readRetentionHours (s : ImageState) : Int :=
  match s.retention with
  | none => 24
  | some parsed => if 1 ≤ parsed ∧ parsed ≤ 24 * 365 then parsed else 24

def listPrefixWithMeta (s : ImageState) (untimed : List String) : List (String × Option Int) :=
  (s.bucket.objects.filter fun o => o.key.startsWith imagePrefix).map fun o =>
    (o.key, if untimed.contains o.key then none else some o.lastModified)

def loadReferencedImageKeys (s : ImageState) : List String :=
  s.assets.rows.filterMap (·.2.imageOssKey) ++ s.consumables.rows.filterMap (·.2.imageOssKey)

/-- The rows of both tables that name an image, deleted assets too. -/
def isKeyReferenced (s : ImageState) (key : String) : Bool :=
  !(s.assets.select fun _ x => x.imageOssKey == some key).isEmpty ||
    !(s.consumables.select fun _ x => x.imageOssKey == some key).isEmpty

def unregister (key : String) (s : ImageState) : ImageState :=
  { s with imageObjects := s.imageObjects.filter (· != key) }

def deleteObject (key : String) (s : ImageState) : ImageState :=
  { s with
    bucket := s.bucket.delete key
    removed := if (s.bucket.lastModified? key).isSome then key :: s.removed else s.removed }

end ImageState

/-- An object whose time is unknown is not yet expired. -/
def Round.isExpired (round : Round) (lastModified : Option Int) : Bool :=
  lastModified.any fun t => decide (t ≤ round.cutoff)

/-- The next call of a run of the cleanup: what it does, and where the run is then, if it goes
on. -/
def CleanupPhase.advance (outcome : Outcome) (s : ImageState) :
    CleanupPhase → ImageState × Option CleanupPhase
  | .begun => (s, if outcome.isAnswered then some (.configured s.readRetentionHours) else none)
  | .configured hours => (s, some (.dated ⟨hours, s.clock - hours * ImageState.hourMillis⟩))
  | .dated round =>
      match outcome with
      | .answered untimed =>
          let objects := s.listPrefixWithMeta untimed
          (s, if objects.isEmpty then none else some (.listed round objects))
      | _ => (s, none)
  | .listed round objects =>
      (s, if outcome.isAnswered then some (.deciding round s.loadReferencedImageKeys objects)
        else none)
  | .deciding _ _ [] => (s, none)
  | .deciding round referenced (object :: rest) =>
      if referenced.contains object.1 || !round.isExpired object.2 then
        (s, some (.deciding round referenced rest))
      -- A check that fails keeps the object.
      else if !outcome.isAnswered || s.isKeyReferenced object.1 then
        (s, some (.deciding round referenced rest))
      else (s, some (.confirmed round referenced object.1 rest))
  | .confirmed round referenced key rest =>
      match outcome with
      | .answered _ => (s.unregister key, some (.unregistered round referenced key rest))
      | .failed => (s, none)
      | .replyLost => (s.unregister key, none)
  | .unregistered round referenced key rest =>
      match outcome with
      | .answered _ => (s.deleteObject key, some (.deciding round referenced rest))
      | .failed => (s, none)
      | .replyLost => (s.deleteObject key, none)

/-! ## Transactions -/

/-- What a transaction looks for before anything else. -/
def ImageWrite.finds (s : ImageState) : ImageWrite → Bool
  | .createAsset _ => true
  | .updateAsset id _ => (s.assets.find? id).any AssetImage.isLive
  | .deleteAssets ids => ids.all fun id => (s.assets.find? id).any AssetImage.isLive
  | .createConsumable _ => true
  | .updateConsumable id _ => (s.consumables.find? id).isSome
  | .deleteConsumables ids => ids.all fun id => (s.consumables.find? id).isSome

/-- What a transaction commits; it writes by ids alone, and nobody asks for the object. -/
def ImageWrite.commit (s : ImageState) : ImageWrite → ImageState
  | .createAsset key =>
      { s with assets := s.assets.insert s.sequence ⟨key, true⟩, sequence := s.sequence + 1 }
  | .updateAsset id key =>
      { s with assets := s.assets.update id fun x => { x with imageOssKey := key } }
  | .deleteAssets ids =>
      { s with
        assets := s.assets.updateMany (fun id x => ids.contains id && x.isLive) fun x =>
          { x with isLive := false } }
  | .createConsumable key =>
      { s with
        consumables := s.consumables.insert s.sequence ⟨key⟩
        sequence := s.sequence + 1 }
  | .updateConsumable id key =>
      { s with consumables := s.consumables.update id fun x => { x with imageOssKey := key } }
  | .deleteConsumables ids =>
      { s with consumables := s.consumables.deleteMany fun id _ => ids.contains id }

/-! ## Steps -/

/-- Time passes; a run of the cleanup begins, makes a call or is lost; a transaction begins, goes
on with or without passing the checks that are no matter of images; an object is uploaded or
finalized, registered, or taken away by a finalization; the setting changes. -/
inductive ImageEvent where
  | pass (d : Nat)
  | startCleanup (i : Nat)
  | advanceCleanup (i : Nat) (outcome : Outcome)
  | crash (i : Nat)
  | startWriter (i : Nat) (write : ImageWrite)
  | advanceWriter (i : Nat) (passes : Bool)
  | put (key : String)
  | register (key : String)
  | discard (key : String)
  | configure (retention : Option Int)
deriving DecidableEq

namespace ImageState

/-- A run of the cleanup goes on at a phase, or ends. -/
def setCleanup (i : Nat) (phase : Option CleanupPhase) (s : ImageState) : ImageState :=
  match phase with
  | some phase => { s with cleanups := s.cleanups.insert i phase }
  | none => { s with cleanups := s.cleanups.deleteMany fun j _ => j == i }

def endWriter (i : Nat) (s : ImageState) : ImageState :=
  { s with writers := s.writers.deleteMany fun j _ => j == i }

def advanceWriter (i : Nat) (passes : Bool) (w : Writer) (s : ImageState) : ImageState :=
  if !passes then s.endWriter i
  else if w.found then (w.write.commit s).endWriter i
  else if w.write.finds s then { s with writers := s.writers.insert i { w with found := true } }
  else s.endWriter i

def step (s : ImageState) : ImageEvent → ImageState
  | .pass d => { s with clock := s.clock + d }
  | .startCleanup i =>
      if (s.cleanups.find? i).isSome then s else s.setCleanup i (some .begun)
  | .advanceCleanup i outcome =>
      match s.cleanups.find? i with
      | none => s
      | some phase => (phase.advance outcome s).1.setCleanup i (phase.advance outcome s).2
  | .crash i => s.setCleanup i none
  | .startWriter i write =>
      if (s.writers.find? i).isSome then s
      else { s with writers := s.writers.insert i ⟨write, false⟩ }
  | .advanceWriter i passes =>
      match s.writers.find? i with
      | none => s
      | some w => s.advanceWriter i passes w
  | .put key =>
      { s with bucket := s.bucket.put key s.clock, removed := s.removed.filter (· != key) }
  | .register key => { s with imageObjects := key :: s.imageObjects.filter (· != key) }
  | .discard key => { s with bucket := s.bucket.delete key }
  | .configure retention => { s with retention := retention }

end ImageState

end Wbme.Images

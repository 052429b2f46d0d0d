import Wbme.FixedAsset.Assets
import Wbme.Lib.Along

/-! # What assets refer to

An asset names a category and the one who uses it. Categories are created, renamed, disabled and
deleted, and accounts are closed, while assets are created and edited: a transaction looks up what
is chosen first, one after the other, and writes the asset at its end.
-/

namespace Wbme.FixedAsset

open Lib AssetService

/-! ## Categories -/

structure Category where
  parentId : Option Nat
  name : String
  isActive : Bool

structure Catalog where
  categories : Table Category
  sequence : Nat

namespace Catalog

/-- A category as it is looked up: with the name of the one above it, or its own. -/
def category? (c : Catalog) (id : Nat) : Option AssetCategory :=
  (c.categories.find? id).map fun x =>
    ⟨x.name, ((x.parentId.bind c.categories.find?).map Category.name).getD x.name, x.isActive⟩

/-- The unique index: one name below one parent, or none. -/
def isTaken (c : Catalog) (parentId : Option Nat) (name : String) (self : Option Nat) : Bool :=
  !(c.categories.select fun id x =>
    x.parentId == parentId && x.name == name && some id != self).isEmpty

def insert (c : Catalog) (x : Category) : Catalog :=
  ⟨c.categories.insert c.sequence x, c.sequence + 1⟩

/-- A top category that the service starts with. -/
def ensureDefault (c : Catalog) (name : String) : Catalog :=
  if c.isTaken none name none then c else c.insert ⟨none, name, true⟩

def isTop (c : Catalog) (id : Nat) : Bool :=
  (c.categories.find? id).any fun x => x.parentId.isNone

def create (c : Catalog) (parentId : Option Nat) (name : String) : Catalog :=
  match parentId with
  | none => c
  | some parent =>
      if !c.isTop parent || c.isTaken parentId name none then c
      else c.insert ⟨parentId, name, true⟩

def update (c : Catalog) (id : Nat) (name : String) (isActive : Bool) : Catalog :=
  match c.categories.find? id with
  | none => c
  | some existing =>
      if existing.parentId.isNone || c.isTaken existing.parentId name (some id) then c
      else { c with categories := c.categories.update id fun x =>
        { x with name := name, isActive := isActive } }

def batchDelete (c : Catalog) (ids : List Nat) : Catalog :=
  let rows := c.categories.select fun id _ => ids.contains id
  if rows.length ≠ ids.length || rows.any fun row => row.2.parentId.isNone then c
  else { c with categories := c.categories.deleteMany fun id _ => ids.contains id }

end Catalog

namespace AssetService

structure AssetCreateDto where
  name : String
  categoryId : Option Nat
  specModel : Option String
  amount : String
  purchaseAt : Option String
  ownership : AssetOwnership
  ownerName : Option String
  departmentId : Option Nat
  responsibleUserId : Option Nat
  currentUserId : Option Nat
  imageOssKey : Option String
  remark : Option String

def AssetCreateDto.row (env : FixedEnvironment) (dto : AssetCreateDto)
    (categoryName responsibleUserName currentUserName : Option String) : Asset where
  name := dto.name
  categoryId := dto.categoryId
  categoryName
  specModel := dto.specModel
  amount := env.decimal dto.amount
  purchaseAt := dto.purchaseAt.map env.date
  usageStatus := .idle
  ownership := dto.ownership
  ownerName := dto.ownerName
  departmentId := dto.departmentId
  departmentName := dto.departmentId.map fun id => (env.department id).getD ""
  responsibleUserId := dto.responsibleUserId
  responsibleUserName
  currentUserId := dto.currentUserId
  currentUserName
  imageOssKey := dto.imageOssKey
  remark := dto.remark
  deletedAt := none

end AssetService

/-! ## Transactions -/

inductive AssetWrite where
  | create (dto : AssetCreateDto)
  | update (id : Nat) (dto : AssetUpdateDto)

namespace AssetWrite

def categoryId : AssetWrite → Option Nat
  | .create dto => dto.categoryId
  | .update _ dto => dto.categoryId

def responsibleUserId : AssetWrite → Option Nat
  | .create dto => dto.responsibleUserId
  | .update _ _ => none

def currentUserId : AssetWrite → Option Nat
  | .create dto => dto.currentUserId
  | .update _ dto => dto.currentUserId

end AssetWrite

/-- What a transaction knows before its next statement: the asset that it found, and the names of
what was chosen. -/
inductive WriterPhase where
  | begun
  | found (existing : Option Asset)
  | categorised (existing : Option Asset) (categoryName : Option String)
  | assigned (existing : Option Asset) (categoryName responsibleUserName : Option String)
  | named (categoryName responsibleUserName currentUserName : Option String)

structure Writer where
  write : AssetWrite
  phase : WriterPhase

structure Office where
  catalog : Catalog
  users : Table UserAccount
  assets : Table Asset
  sequence : Nat
  writers : Table Writer

namespace Office

/-- What an operation finds around the assets. -/
def environment (o : Office) (env : FixedEnvironment) : FixedEnvironment :=
  { env with category := o.catalog.category?, userAccount := o.users.find? }

def findExisting (o : Office) : AssetWrite → Except Failure (Option Asset)
  | .create _ => .ok none
  | .update id _ =>
      match (o.assets.find? id).filter Asset.isLive with
      | none => .error (.of .resourceNotFound)
      | some existing =>
          if isUnderRepair existing then .error statusInvalid else .ok (some existing)

def commit (o : Office) (env : FixedEnvironment) (write : AssetWrite)
    (categoryName responsibleUserName currentUserName : Option String) : Office :=
  match write with
  | .create dto =>
      { o with
        assets := o.assets.insert o.sequence
          (dto.row env categoryName responsibleUserName currentUserName)
        sequence := o.sequence + 1 }
  | .update id dto =>
      { o with assets := o.assets.update id (dto.writeOver env categoryName currentUserName) }

/-- The next statement of a transaction: what it leaves, and what the transaction knows then, if
it goes on. -/
def statement (o : Office) (env : FixedEnvironment) (w : Writer) :
    Office × Except Failure (Option WriterPhase) :=
  match w.phase with
  | .begun => (o, (o.findExisting w.write).map fun existing => some (.found existing))
  | .found existing =>
      (o, (categoryName (o.environment env) (existing.bind (·.categoryId)) w.write.categoryId).map
        fun name => some (.categorised existing name))
  | .categorised existing category =>
      (o, (userName (o.environment env) none w.write.responsibleUserId).map
        fun name => some (.assigned existing category name))
  | .assigned existing category responsible =>
      (o, (userName (o.environment env) (existing.bind (·.currentUserId))
        w.write.currentUserId).map fun name => some (.named category responsible name))
  | .named category responsible current =>
      (o.commit (o.environment env) w.write category responsible current, .ok none)

def setWriter (i : Nat) (w : Option Writer) (o : Office) : Office :=
  match w with
  | some w => { o with writers := o.writers.insert i w }
  | none => { o with writers := o.writers.deleteMany fun j _ => j == i }

/-- A failed statement, or a check that is no matter of what is chosen, ends a transaction. -/
def advanceWriter (i : Nat) (env : FixedEnvironment) (passes : Bool) (w : Writer) (o : Office) :
    Office :=
  if !passes then o.setWriter i none
  else
    match (o.statement env w).2 with
    | .error _ => o.setWriter i none
    | .ok next =>
        (o.statement env w).1.setWriter i (next.map fun phase => { w with phase := phase })

end Office

/-! ## Steps -/

/-- What the other operations on an asset change: the hand-overs, the repairs, the write-offs, the
deletions, and the department that is taken away. -/
structure Restatement where
  usageStatus : AssetStatus
  departmentId : Option Nat
  departmentName : Option String
  responsibleUserId : Option Nat
  responsibleUserName : Option String
  deletedAt : Option Int

def Restatement.apply (r : Restatement) (a : Asset) : Asset :=
  { a with
    usageStatus := r.usageStatus
    departmentId := r.departmentId
    departmentName := r.departmentName
    responsibleUserId := r.responsibleUserId
    responsibleUserName := r.responsibleUserName
    deletedAt := a.deletedAt.or r.deletedAt }

inductive OfficeEvent where
  | startWriter (i : Nat) (write : AssetWrite)
  | advanceWriter (i : Nat) (env : FixedEnvironment) (passes : Bool)
  | restate (id : Nat) (restatement : Restatement)
  | ensureDefault (name : String)
  | createCategory (parentId : Option Nat) (name : String)
  | updateCategory (id : Nat) (name : String) (isActive : Bool)
  | deleteCategories (ids : List Nat)
  /-- An account is opened, renamed, closed or opened again; none is ever removed. -/
  | setUser (id : Nat) (account : UserAccount)

namespace Office

def step (o : Office) : OfficeEvent → Office
  | .startWriter i write =>
      if (o.writers.find? i).isSome then o else o.setWriter i (some ⟨write, .begun⟩)
  | .advanceWriter i env passes =>
      match o.writers.find? i with
      | none => o
      | some w => o.advanceWriter i env passes w
  | .restate id restatement =>
      { o with assets := o.assets.update id restatement.apply }
  | .ensureDefault name => { o with catalog := o.catalog.ensureDefault name }
  | .createCategory parentId name => { o with catalog := o.catalog.create parentId name }
  | .updateCategory id name isActive => { o with catalog := o.catalog.update id name isActive }
  | .deleteCategories ids => { o with catalog := o.catalog.batchDelete ids }
  | .setUser id account => { o with users := o.users.insert id account }

/-- No assets so far, and no transactions. -/
def opened (users : Table UserAccount) : Office := ⟨⟨.empty, 0⟩, users, .empty, 0, .empty⟩

end Office

end Wbme.FixedAsset

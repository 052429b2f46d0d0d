import Wbme.Idempotency
import Wbme.Lib.Interleave

/-! # System announcements

An announcement is drafted, displayed and withdrawn, and displayed again. A unique index admits
one that is displayed and not deleted; publishing withdraws the one before.
-/

namespace Wbme.Announcements

open Lib

inductive AnnouncementStatus where
  | draft
  | publishing
  | revoked
deriving DecidableEq

structure Announcement where
  title : String
  content : Option String
  status : AnnouncementStatus
  publishedAt : Option Int
  publisherId : Option Nat
  deletedAt : Option Int

def Announcement.isLive (x : Announcement) : Bool := x.deletedAt.isNone

/-- The condition of the unique index. -/
def Announcement.isDisplayed (x : Announcement) : Bool := x.status == .publishing && x.isLive

def Announcement.edit (title : String) (content : Option String) (x : Announcement) :
    Announcement :=
  { x with title := title, content := content }

def Announcement.publish (now : Int) (operatorId : Nat) (x : Announcement) : Announcement :=
  { x with status := .publishing, publishedAt := some now, publisherId := some operatorId }

def Announcement.revoke (x : Announcement) : Announcement := { x with status := .revoked }

def Announcement.delete (now : Int) (x : Announcement) : Announcement :=
  { x with deletedAt := some now, status := .revoked }

inductive AnnouncementReply where
  | id (id : Nat)
  | status (id : Nat) (status : AnnouncementStatus)
  | deleted (count : Nat)

structure AnnouncementStore where
  announcements : Table Announcement
  operationLogs : Table (OperationLog AnnouncementReply)

def AnnouncementStore.empty : AnnouncementStore := ⟨.empty, .empty⟩

/-- Row locks, and the waits on the entry of the index. -/
inductive AnnouncementLock where
  | row (id : Nat)
  | displayed
  | idempotency (operatorId : Nat) (scope key : String)
deriving DecidableEq

abbrev AnnouncementTx (α : Type) := Txn AnnouncementStore AnnouncementLock Failure α

abbrev AnnouncementCall := Call AnnouncementStore AnnouncementLock Failure AnnouncementReply

def announcementLog : LogTable AnnouncementStore AnnouncementLock AnnouncementReply where
  system := "BACKSTAGE"
  get := AnnouncementStore.operationLogs
  set s t := { s with operationLogs := t }
  lock := AnnouncementLock.idempotency
  get_set _ _ := rfl

def announcementManage : String := "announcement_manage"

def displayed (v : AnnouncementStore) : List (Nat × Announcement) :=
  v.announcements.select fun _ x => x.isDisplayed

def findLive (id : Nat) : AnnouncementTx Announcement := do
  let found ← Txn.query fun v => v.announcements.find? id
  Txn.orThrow (found.filter Announcement.isLive) (.of .resourceNotFound)

/-- A write of a row that is displayed makes others wait at the index too. -/
def rowLocks (v : AnnouncementStore) (id : Nat) : List AnnouncementLock :=
  match v.announcements.find? id with
  | none => []
  | some x => if x.isDisplayed then [.row id, .displayed] else [.row id]

/-- `announcement.update` by the id, of columns that the index does not look at or that leave
it. -/
def updateAnnouncement (id : Nat) (f : Announcement → Announcement) :
    AnnouncementTx Announcement :=
  Txn.act (fun v => rowLocks v id) fun v =>
    match v.announcements.find? id with
    | none => .error (.recordMissing "announcements")
    | some x => .ok (f x, fun s => { s with announcements := s.announcements.update id f })

def updateRows (rows : AnnouncementStore → List Nat) (f : Announcement → Announcement) :
    AnnouncementTx Unit :=
  Txn.exec (fun v => (rows v).flatMap (rowLocks v)) fun v s =>
    { s with announcements := s.announcements.updateMany (fun id _ => (rows v).contains id) f }

namespace AnnouncementService

structure UpsertAnnouncementDto where
  title : String
  content : Option String
  idempotencyKey : Option String

/-! ## Creating and editing -/

def createRun (dto : UpsertAnnouncementDto) :
    AnnouncementTx (IdempotentOutcome AnnouncementReply) := do
  let row : Announcement :=
    { title := dto.title, content := dto.content, status := .draft, publishedAt := none
      publisherId := none, deletedAt := none }
  let id ← Txn.create (fun _ => []) (fun _ => []) fun id s =>
    { s with announcements := s.announcements.insert id row }
  pure ⟨.id id, .create, s!"创建公告「{dto.title}」"⟩

def updateRun (id : Nat) (dto : UpsertAnnouncementDto) :
    AnnouncementTx (IdempotentOutcome AnnouncementReply) := do
  let existing ← findLive id
  Txn.guard (existing.status != .publishing)
    (.because .validationFailed "展示中的公告不可编辑，请先撤回")
  let _ ← updateAnnouncement id (.edit dto.title dto.content)
  pure ⟨.id id, .update, s!"编辑公告「{dto.title}」"⟩

/-! ## Publishing and revoking -/

/-- The announcements that make room for another one. -/
def others (v : AnnouncementStore) (id : Nat) : List Nat :=
  ((displayed v).map (·.1)).filter (· != id)

/-- The rows that `updateMany` finds, and that are still displayed when it comes to them. -/
def revokeOthers (id : Nat) : AnnouncementTx Unit := do
  let ids ← Txn.query fun v => others v id
  updateRows (fun v => ids.filter fun i => (v.announcements.find? i).any Announcement.isDisplayed)
    .revoke

/-- The update that displays the target; a conflict at the index is the caller's. -/
def displayTarget (now : Int) (operatorId id : Nat) : AnnouncementTx Announcement :=
  Txn.act
    (fun v => match v.announcements.find? id with
      | none => []
      | some x => if x.isLive then [.row id, .displayed] else [.row id])
    fun v =>
      match v.announcements.find? id with
      | none => .error (.recordMissing "announcements")
      | some x =>
          if x.isLive && !(others v id).isEmpty then .error (.of .conflict)
          else .ok (x.publish now operatorId, fun s =>
            { s with announcements := s.announcements.update id (.publish now operatorId) })

def publishRun (now : Int) (operatorId id : Nat) :
    AnnouncementTx (IdempotentOutcome AnnouncementReply) := do
  let _ ← findLive id
  revokeOthers id
  let row ← displayTarget now operatorId id
  pure ⟨.status id row.status, .update, s!"发布公告「{row.title}」"⟩

def revokeRun (id : Nat) : AnnouncementTx (IdempotentOutcome AnnouncementReply) := do
  let _ ← findLive id
  let row ← updateAnnouncement id .revoke
  pure ⟨.status id row.status, .update, s!"撤回公告「{row.title}」"⟩

/-! ## Deleting -/

def batchDeleteRun (now : Int) (ids : List Nat) :
    AnnouncementTx (IdempotentOutcome AnnouncementReply) := do
  let existing ← Txn.query fun v =>
    (v.announcements.select fun id x => ids.contains id && x.isLive).map (·.1)
  let missing := ids.filter fun id => !existing.contains id
  Txn.guard (existing.length == ids.length) (.business .validationFailed
    (missing.map fun id => (toString id, "公告不存在或已删除")))
  updateRows (fun v => ids.filter fun id => (v.announcements.find? id).isSome) (.delete now)
  pure ⟨.deleted ids.length, .delete, s!"批量删除 {ids.length} 条公告"⟩

end AnnouncementService

/-! ## Operations -/

inductive AnnouncementOperation where
  | create (dto : AnnouncementService.UpsertAnnouncementDto)
  | update (id : Nat) (dto : AnnouncementService.UpsertAnnouncementDto)
  | publish (id : Nat)
  | revoke (id : Nat)
  | batchDelete (ids : List Nat)

structure AnnouncementActivity where
  now : Int
  operator : OperationLogOperator
  operation : AnnouncementOperation
  idempotencyKey : Option String
  fingerprint : String

def AnnouncementOperation.scope : AnnouncementOperation → String
  | .create _ => "announcements.create"
  | .update _ _ => "announcements.update"
  | .publish _ => "announcements.publish"
  | .revoke _ => "announcements.revoke"
  | .batchDelete _ => "announcements.batch-delete"

open AnnouncementService in
def AnnouncementActivity.transaction (a : AnnouncementActivity) :
    AnnouncementTx (IdempotentOutcome AnnouncementReply) :=
  match a.operation with
  | .create dto => createRun dto
  | .update id dto => updateRun id dto
  | .publish id => publishRun a.now a.operator.id id
  | .revoke id => revokeRun id
  | .batchDelete ids => batchDeleteRun a.now ids

def AnnouncementActivity.call (a : AnnouncementActivity) : AnnouncementCall :=
  executeIdempotentOperation announcementLog
    ⟨a.operator, announcementManage, a.operation.scope, a.idempotencyKey, a.fingerprint⟩
    a.transaction

end Wbme.Announcements

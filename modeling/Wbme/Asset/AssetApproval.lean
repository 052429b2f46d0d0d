import Wbme.Approval.Scope
import Wbme.Asset.Borrow

/-! # Processing and cancelling asset approvals

A head is processed under the approver's access and scope. The conditional
update on status and version comes before every side effect, so a transaction
that loses the race has written nothing; the side effects of approval and
release are dispatched by request type.
-/

namespace Wbme.Asset

open Lib Approval

def isCompanyOnlyRequestType : RequestType → Bool
  | .stockIn => true
  | .stockChange => true
  | _ => false

def RequestType.text : RequestType → String
  | .stockIn => "STOCK_IN"
  | .stockChange => "STOCK_CHANGE"
  | .consumableRequest => "CONSUMABLE_REQUEST"
  | .agentRequest => "AGENT_REQUEST"
  | .return => "RETURN"
  | .writeOff => "WRITE_OFF"
  | .agentSettlement => "AGENT_SETTLEMENT"

namespace AssetApprovalSideEffect

def applyApprove (env : Environment) (head : SideHead) (processorId : Nat) : Tx Unit :=
  match head.requestType with
  | .stockIn => StockInService.applyApproved head processorId
  | .stockChange => StockChangeService.applyApproved head
  | .consumableRequest => ClaimService.applyApproved env head processorId
  | .agentRequest => AgentClaimService.applyApproved env head processorId
  | .return => BorrowService.applyReturnApproved head
  | .writeOff => BorrowService.applyWriteOffApproved head
  | .agentSettlement => AgentSettlementService.applyApproved head processorId

/-- Stock-in, returns, write-offs and settlements hold nothing that has to be given back. -/
def applyRelease (head : SideHead) : Tx Unit :=
  match head.requestType with
  | .stockChange => StockChangeService.applyRelease head
  | .consumableRequest => ClaimService.applyRelease head
  | .agentRequest => AgentClaimService.applyRelease head
  | .stockIn | .return | .writeOff | .agentSettlement => pure ()

end AssetApprovalSideEffect

namespace AssetApprovalService

def recipientSnapshots (v : Store) (requestId : Nat) : List Json :=
  (v.agentRecipients.select (fun _ r => r.requestId == requestId)).map
    (·.2.departmentSnapshot)

/-- The snapshots of the borrow records a return or write-off acts on. -/
def actionSnapshots (v : Store) (requestId : Nat) : List Json :=
  (v.borrowActionItems.select (fun _ l => l.requestId == requestId)).filterMap
    (fun p => (v.borrowRecords.find? p.2.borrowRecordId).map (·.departmentSnapshot))

def objectSnapshots (v : Store) (id : Nat) (requestType : RequestType) : List Json :=
  match requestType with
  | .agentRequest => recipientSnapshots v id
  | .agentSettlement =>
      match (v.approvalRequests.find? id).bind (·.refRequestId) with
      | none => []
      | some refId => recipientSnapshots v refId
  | .return | .writeOff => actionSnapshots v id
  | .stockIn | .stockChange | .consumableRequest =>
      [((v.approvalRequests.find? id).map (·.applicantDepartmentSnapshot)).getD .null]

def resolveObjectDepartmentIds (v : Store) (id : Nat) (requestType : RequestType) :
    List (Option Int) :=
  (objectSnapshots v id requestType).flatMap extractDepartmentIdsFromSnapshot

/-- Registered, open, allowed, and not a company-only type in department scope. -/
def assertCanAccessRequest (access : FunctionAccess) (requestType : RequestType) : Tx Unit := do
  Txn.guard access.registered (.of .resourceNotFound)
  Txn.guard access.systemOpen (.business .systemNotOpen [("system", access.systemName)])
  Txn.guard access.allowed (.of .resourceNotFound)
  Txn.guard (!(access.dataScope == some .department && isCompanyOnlyRequestType requestType))
    (.of .resourceNotFound)

/-- A department approver has to cover every object of the request. -/
def assertScopeCovers (env : Environment) (id : Nat) (requestType : RequestType)
    (userId : Nat) : Tx Unit :=
  match (env.access userId).dataScope with
  | some .department => do
      let scope := toApproverScope (some .department) (env.closureOfUser userId)
      let ids ← Txn.query (fun v => resolveObjectDepartmentIds v id requestType)
      liftExcept (assertScopeCoversAll scope ids (isCompanyOnlyRequestType requestType)
        requestType.text)
  | _ => pure ()

def sideHead (id : Nat) (head : ApprovalRequest) (processorId : Option Nat)
    (processorName : Option String) : SideHead where
  id := id
  requestType := head.requestType
  applicantId := head.applicantId
  applicantName := head.applicantName
  applicantDepartmentSnapshot := head.applicantDepartmentSnapshot
  processorId := processorId
  processorName := processorName

/-- The columns a processing transition writes. -/
def markProcessed (env : Environment) (status : ApprovalStatus) (processorId : Nat)
    (opinion : Option String) (head : ApprovalRequest) : ApprovalRequest :=
  { head with
    status, version := head.version + 1, processorId := some processorId,
    processorName := some (env.userName processorId), processedAt := some env.now,
    opinion }

/-- Intents the processing endpoint accepts. -/
inductive Decision where
  | approve
  | reject

def Decision.intent : Decision → ProcessAction
  | .approve => .approve
  | .reject => .reject

/-- After the conditional update: side effect, then the action row. -/
def completeProcess (env : Environment) (id : Nat) (head : ApprovalRequest) (decision : Decision)
    (action : ApprovalAction) (processorId : Nat) (opinion : Option String) : Tx Unit := do
  let side := sideHead id head (some processorId) (some (env.userName processorId))
  match decision with
  | .approve => AssetApprovalSideEffect.applyApprove env side processorId
  | .reject => AssetApprovalSideEffect.applyRelease side
  let _ ← approvalActionCreate
    { requestId := id, action, actorId := processorId, actorName := env.userName processorId,
      opinion, cancelSource := none }
  pure ()

def processInner (env : Environment) (id : Nat) (decision : Decision)
    (transition : ResolvedTransition) (processorId : Nat) (opinion : Option String) :
    Tx Unit := do
  let found ← Txn.query (fun v => v.approvalRequests.find? id)
  let head ← Txn.orThrow found (.of .resourceNotFound)
  assertCanAccessRequest (env.access processorId) head.requestType
  Txn.guard (head.status == .pending) (.of .statusConflict)
  liftExcept (assertTransitionAllowed head.status transition.status)
  assertScopeCovers env id head.requestType processorId
  let updated ← approvalRequestTransition id head.version
    (markProcessed env transition.status processorId opinion)
  liftExcept (throwIfTransitionLost updated)
  completeProcess env id head decision transition.action processorId opinion

/-- Approve or reject a head. -/
def process (env : Environment) (id : Nat) (decision : Decision) (processorId : Nat)
    (opinion : Option String) : Tx Unit := do
  let transition ← liftExcept (resolveProcessTransition decision.intent none)
  liftExcept (assertOpinionIfRequired transition.requiresOpinion opinion)
  processInner env id decision transition processorId opinion

/-- The columns a cancellation writes. -/
def markCancelled (env : Environment) (actorId : Nat) (head : ApprovalRequest) :
    ApprovalRequest :=
  { head with
    status := .cancelled, version := head.version + 1, cancelledBy := some actorId,
    cancelledAt := some env.now, cancelSource := some .user }

/-- After the conditional update: release, then the action row. -/
def completeCancel (env : Environment) (id : Nat) (head : ApprovalRequest) (actorId : Nat) :
    Tx Unit := do
  AssetApprovalSideEffect.applyRelease (sideHead id head none none)
  let _ ← approvalActionCreate
    { requestId := id, action := .cancel, actorId, actorName := env.userName actorId,
      opinion := none, cancelSource := some .user }
  pure ()

def cancelInner (env : Environment) (id actorId : Nat) (transition : ResolvedTransition) :
    Tx Unit := do
  let found ← Txn.query (fun v => v.approvalRequests.find? id)
  let head ← Txn.orThrow found (.of .resourceNotFound)
  Txn.guard (head.applicantId == actorId || head.proxyId == some actorId) (.of .resourceNotFound)
  liftExcept (assertPending head.status)
  liftExcept (assertTransitionAllowed head.status transition.status)
  let updated ← approvalRequestTransition id head.version (markCancelled env actorId)
  liftExcept (throwIfTransitionLost updated)
  completeCancel env id head actorId

/-- Cancel one's own pending head. -/
def cancel (env : Environment) (id actorId : Nat) : Tx Unit := do
  let transition ← liftExcept (resolveProcessTransition .cancel (some .user))
  cancelInner env id actorId transition

end AssetApprovalService

namespace OverdueWorker

/-- An overdue head as the scan read it. -/
structure OverdueApprovalRow where
  id : Nat
  version : Nat
  requestType : RequestType

/-- The quantity each item gives back, summed over the lines of the head. -/
def releasedQty (lines : List ReservedLine) (itemId : Nat) : Int :=
  (lines.map (fun line => if line.inventoryItemId = itemId then line.qty else 0)).sum

/-- The grouped update of the items: every item named by a line gives its sum back. -/
def releaseGrouped (linesOf : Store → List ReservedLine) : Tx Unit :=
  Txn.act
    (fun v => (v.inventoryItems.select (fun id _ =>
      (linesOf v).any (fun line => line.inventoryItemId == id))).map (fun p => .inventoryItem p.1))
    fun v =>
      let lines := linesOf v
      let hit := fun (id : Nat) => lines.any (fun line => line.inventoryItemId == id)
      let lowered := fun (id : Nat) (r : InventoryItem) =>
        { r with reservedQty := r.reservedQty - releasedQty lines id : InventoryItem }
      if (v.inventoryItems.select (fun id r => hit id && !(lowered id r).quantitiesOk)).isEmpty
      then
        .ok ((), fun s =>
          { s with
            inventoryItems := s.inventoryItems.alter (fun id r =>
              some (if hit id then lowered id r else r)) })
      else .error (.checkViolation "inventory_items_qty_check")

/-- The reservations of a claim head, whether personal or for others. -/
def claimReservations (requestId : Nat) (v : Store) : List ReservedLine :=
  (claimLinesOf v requestId).map (·.2.reserved)

/-- Give back what an overdue head holds; other types hold nothing. -/
def releaseAssetReservation (row : OverdueApprovalRow) : Tx Unit :=
  match row.requestType with
  | .stockChange => releaseGrouped (fun v => StockChangeService.linesOf v row.id)
  | .consumableRequest => do
      releaseGrouped (claimReservations row.id)
      quotaOccupationSettle row.id .released
  | .agentRequest => releaseGrouped (claimReservations row.id)
  | .stockIn | .return | .writeOff | .agentSettlement => pure ()

/-- The columns an overdue cancellation writes. -/
def markOverdue (now : Int) (head : ApprovalRequest) : ApprovalRequest :=
  { head with
    status := .cancelled, version := head.version + 1, cancelledAt := some now,
    cancelSource := some .overdue }

/-- Cancel one overdue head, or report that someone else was faster. -/
def autoCancelOverdueRow (row : OverdueApprovalRow) (now : Int) : Tx Bool := do
  let updated ← approvalRequestTransition row.id row.version (markOverdue now)
  if updated = 0 then pure false
  else do
    let _ ← approvalActionCreate
      { requestId := row.id, action := .autoCancel, actorId := 0, actorName := "system",
        opinion := none, cancelSource := some .overdue }
    releaseAssetReservation row
    pure true

/-- The scan, cut to one head: pending and submitted before the cutoff. -/
def scanOverdue (v : Store) (cutoff : Int) (id : Nat) : Option OverdueApprovalRow :=
  (v.approvalRequests.find? id).bind fun r =>
    if r.status = .pending ∧ r.submittedAt.any (fun t => t < cutoff) = true then
      some ⟨id, r.version, r.requestType⟩
    else none

def cancelOverdue (cutoff now : Int) (id : Nat) : Tx Bool := do
  let row ← Txn.query (fun v => scanOverdue v cutoff id)
  match row with
  | none => pure false
  | some row => autoCancelOverdueRow row now

end OverdueWorker

end Wbme.Asset

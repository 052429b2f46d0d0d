import Wbme.Approval.Scope
import Wbme.Asset.Borrow

/-! # Direct disposal

Borrow records of deactivated accounts are returned or written off without an
approval: personal records line by line, an agent list only as a whole. Every
line leaves a disposal record, which names the flows of a return.
-/

namespace Wbme.Asset.DisposalService

open Lib Approval

structure DirectDisposal where
  disposalType : DisposalType
  items : List SettlementRequestItem
  agentRequestId : Option Nat
  agentItems : List SettlementRequestItem

def snapshotsWithin (closure : List Nat) (snapshots : List Json) : Bool :=
  let ids := (snapshots.flatMap extractDepartmentIdsFromSnapshot).filterMap id
  !ids.isEmpty && ids.all (fun id => closure.any (fun d => (d : Int) == id))

/-- A personal record of an account that is still deactivated, inside the scope. -/
def assertDisposable (env : Environment) (record : BorrowRecordLockRow) (scope : ApproverScope)
    (closure : List Nat) : Tx Unit := do
  match record.2.recordType, record.2.userId with
  | .personal, some userId =>
      Txn.guard (env.deactivated userId) (.because .disposalForbidden "借用人已恢复账号")
      match scope with
      | .company => pure ()
      | .department _ => do
          let row ← Txn.query (fun v => v.borrowRecords.find? record.1)
          Txn.guard (snapshotsWithin closure
            [(row.map BorrowRecord.departmentSnapshot).getD .null]) (.of .resourceNotFound)
  | _, _ => .throw (.of .resourceNotFound)

def disposalRow (operator : Operator) (disposalType : DisposalType) (agentRequestId : Option Nat)
    (record : BorrowRecordLockRow) (item : SettlementRequestItem) : DirectDisposalRecord where
  disposalType := disposalType
  borrowRecordId := record.1
  agentRequestId := agentRequestId
  userId := if disposalType = .agentSettle then none else record.2.userId
  userName := if disposalType = .agentSettle then none else record.2.userName
  departmentSnapshot := record.2.departmentSnapshot
  inventoryItemId := record.2.inventoryItemId
  snapshot := record.2.snapshot
  qty := item.qty
  writeOffType := if item.method = .writeOff then item.writeOffType else none
  reason := item.reason
  processorId := operator.id
  processorName := operator.name
  stockFlowRefs := []

def disposeLine (operator : Operator) (disposalType : DisposalType)
    (agentRequestId : Option Nat) (record : BorrowRecordLockRow) (item : SettlementRequestItem) :
    Tx Nat := do
  let disposalId ← directDisposalRecordCreate
    (disposalRow operator disposalType agentRequestId record item)
  match item.method with
  | .return => do
      let flowIds ← restoreRecord record item.qty
        { refType := "DIRECT_DISPOSAL", refId := disposalId, operatorId := operator.id,
          operatorName := operator.name }
      directDisposalRecordUpdate disposalId (fun r => { r with stockFlowRefs := flowIds })
  | .writeOff => writeOffRecord record item.qty
  pure disposalId

def typeOfMethod : SettleMethod → DisposalType
  | .return => .return
  | .writeOff => .writeOff

/-- Settle the whole list of a deactivated proxy. -/
def disposeAgentSettle (env : Environment) (operator : Operator) (agentRequestId : Nat)
    (items : List SettlementRequestItem) (scope : ApproverScope) (closure : List Nat) :
    Tx (List Nat) := do
  let found ← Txn.query (fun v => v.approvalRequests.find? agentRequestId)
  let source ← Txn.orThrow found (.of .resourceNotFound)
  Txn.guard (source.requestType == .agentRequest) (.of .resourceNotFound)
  Txn.guard (env.deactivated source.applicantId)
    (.because .disposalForbidden "代交发起人已恢复账号")
  let pendingSettle ← Txn.query (fun v => pendingSettlements v agentRequestId)
  Txn.guard pendingSettle.isEmpty (.because .disposalForbidden "存在待审批的结清申请")
  match scope with
  | .company => pure ()
  | .department _ => do
      let recipients ← Txn.query (fun v =>
        v.agentRecipients.select (fun _ r => r.requestId == agentRequestId))
      Txn.guard (snapshotsWithin closure (recipients.map (·.2.departmentSnapshot)))
        (.of .resourceNotFound)
  assertCoverage agentRequestId items
  let locked ← lockRecords (items.map (·.borrowRecordId))
  items.mapM fun item => do
    let record ← lockedRecord locked item.borrowRecordId
    disposeLine operator .agentSettle (some agentRequestId) record item

/-- Dispose of personal records line by line. -/
def disposePersonal (env : Environment) (operator : Operator)
    (items : List SettlementRequestItem) (scope : ApproverScope) (closure : List Nat) :
    Tx (List Nat) := do
  Txn.guard (!items.isEmpty) (.because .validationFailed "需要处置明细")
  Txn.guard (decide (items.map (·.borrowRecordId)).Nodup) (.of .itemDuplicated)
  let locked ← lockRecords (items.map (·.borrowRecordId))
  items.mapM fun item => do
    let record ← lockedRecord locked item.borrowRecordId
    assertDisposable env record scope closure
    disposeLine operator (typeOfMethod item.method) none record item

/-- Registered, allowed and open, or failure. -/
def assertFunctionAccess (access : FunctionAccess) : Tx Unit := do
  Txn.guard (access.registered && access.allowed) (.of .resourceNotFound)
  Txn.guard access.systemOpen (.business .systemNotOpen [("system", access.systemName)])

def dispose (env : Environment) (operator : Operator) (userId : Nat) (dto : DirectDisposal) :
    Tx (List Nat) := do
  let access := env.access userId
  assertFunctionAccess access
  let closure := env.closureOfUser userId
  let scope := toApproverScope access.dataScope closure
  match dto.disposalType with
  | .agentSettle =>
      match dto.agentRequestId with
      | some agentRequestId => do
          Txn.guard (!dto.agentItems.isEmpty)
            (.because .validationFailed "AGENT_SETTLE 需要代领清单与结清明细")
          disposeAgentSettle env operator agentRequestId dto.agentItems scope closure
      | none => .throw (.because .validationFailed "AGENT_SETTLE 需要代领清单与结清明细")
  | _ => disposePersonal env operator dto.items scope closure

end Wbme.Asset.DisposalService

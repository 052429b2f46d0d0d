import Wbme.Asset.InventoryCore

/-! # Approval heads

Creating a pending head with its SUBMIT action. The database refuses a reused
application number and a second pending settlement of one agent list; the second
violation is reported as a reached limit.
-/

namespace Wbme.Asset

open Lib Approval

structure CreateRequestHeadInput where
  requestType : RequestType
  applicantId : Nat
  applicantName : String
  applicantDepartmentSnapshot : Json
  proxyId : Option Nat
  proxyName : Option String
  refRequestId : Option Nat
  remark : Option String

def applicationNoPrefixAsset : RequestType → String
  | .stockIn => "SI"
  | .stockChange => "SC"
  | .consumableRequest => "CR"
  | .agentRequest => "AR"
  | .return => "RT"
  | .writeOff => "WO"
  | .agentSettlement => "AS"

/-- The head row a submission writes. -/
def pendingHead (env : Environment) (input : CreateRequestHeadInput) : ApprovalRequest where
  applicationNo := applicationNoPrefixAsset input.requestType ++ env.applicationNoSuffix
  requestType := input.requestType
  applicantId := input.applicantId
  applicantName := input.applicantName
  applicantDepartmentSnapshot := input.applicantDepartmentSnapshot
  proxyId := input.proxyId
  proxyName := input.proxyName
  refRequestId := input.refRequestId
  remark := input.remark
  status := .pending
  version := 1
  submittedAt := some env.now
  cancelledBy := none
  cancelledAt := none
  cancelSource := none
  processorId := none
  processorName := none
  processedAt := none
  opinion := none

/-- The pending settlements of an agent list, which the partial unique index keeps to one. -/
def pendingSettlements (v : Store) (refRequestId : Nat) : List (Nat × ApprovalRequest) :=
  v.approvalRequests.select (fun _ r => r.requestType == .agentSettlement &&
    r.status == .pending && r.refRequestId == some refRequestId)

/-- Does the partial unique index cover the row? -/
def settlementRef (row : ApprovalRequest) : Option Nat :=
  if row.requestType = .agentSettlement ∧ row.status = .pending then row.refRequestId else none

/-- Insert a head; a violated settlement index is mapped to the reached limit. -/
def approvalRequestCreate (row : ApprovalRequest) : Tx Nat :=
  create
    (fun v => .applicationNo row.applicationNo ::
      (settlementRef row).toList.flatMap (fun ref =>
        .pendingSettlement ref :: (pendingSettlements v ref).map (fun p => .approvalRequest p.1)))
    (fun v =>
      [(!(v.approvalRequests.select (fun _ r => r.applicationNo == row.applicationNo)).isEmpty,
          .uniqueViolation "application_no"),
        ((settlementRef row).any (fun ref => !(pendingSettlements v ref).isEmpty),
          .of .pendingLimitReached)])
    (fun id s => { s with approvalRequests := s.approvalRequests.insert id row })

/-- Create a pending head and its SUBMIT action. -/
def createRequestHead (env : Environment) (input : CreateRequestHeadInput) :
    Tx (Nat × String) := do
  Txn.guard (!(input.requestType == .agentSettlement && input.refRequestId.isNone))
    (.because .validationFailed "AGENT_SETTLEMENT_REQUIRES_REF_REQUEST_ID")
  let row := pendingHead env input
  let id ← approvalRequestCreate row
  let _ ← approvalActionCreate
    { requestId := id, action := .submit, actorId := input.applicantId,
      actorName := input.applicantName, opinion := none, cancelSource := none }
  pure (id, row.applicationNo)

/-- The head fields the side effects of processing and releasing see. -/
structure SideHead where
  id : Nat
  requestType : RequestType
  applicantId : Nat
  applicantName : String
  applicantDepartmentSnapshot : Json
  processorId : Option Nat
  processorName : Option String

/-- The operator name of a flow when no processor name is known. -/
def approvalSystemName : String := "审批系统"

end Wbme.Asset

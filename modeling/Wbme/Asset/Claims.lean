import Wbme.Asset.QuotaPeriod
import Wbme.Asset.StockRequests

/-! # Claims

An ordinary claim reserves stock and personal quota at submission; its approval
issues the reserved stock, turns the reserved quota into consumed quota, and
lends borrowed goods under personal borrow records. A claim for others reserves
stock only, and lends under records of the whole list.
-/

namespace Wbme.Asset

open Lib

structure ClaimRequestItem where
  inventoryItemId : Nat
  qty : Int
  qty_pos : 1 ≤ qty
  purpose : Option String

structure ClaimLine where
  inventoryItemId : Nat
  consumableId : Nat
  snapshot : StockSnapshot
  qty : Int
  purpose : Option String

structure QuotaConfig where
  type : ConsumableType
  quotaCycle : Option QuotaCycle
  quotaLimit : Option Int
  returnDays : Option Int
  maxHolding : Option Int

structure QuotaCheck where
  key : QuotaKey
  config : QuotaConfig
  claimed : Int

/-- The lines of a claim head, whether personal or for others. -/
def claimLinesOf (v : Store) (requestId : Nat) : List (Nat × ConsumableRequestItem) :=
  v.consumableRequestItems.select (fun _ l => l.requestId == requestId)

def ConsumableRequestItem.reserved (line : ConsumableRequestItem) : ReservedLine :=
  ⟨line.inventoryItemId, line.qty⟩

def prepareClaimLine (locked : List InventoryItemLockRow) (item : ClaimRequestItem) :
    Tx (ClaimLine × Consumable) := do
  let row ← Txn.orThrow (lockedById locked item.inventoryItemId) (.of .resourceNotFound)
  Txn.guard (item.qty ≤ row.bookQty - row.reservedQty) (.of .insufficientStock)
  let consumable ← Txn.query (fun v => v.consumables.find? row.consumableId)
  match consumable with
  | none => .throw (.of .consumableDisabled)
  | some c =>
      Txn.guard (c.status == .active) (.of .consumableDisabled)
      pure
        ({ inventoryItemId := item.inventoryItemId, consumableId := row.consumableId,
            snapshot := { row.snapshot with consumableName := c.name }, qty := item.qty,
            purpose := item.purpose }, c)

/-- Write the lines of a claim under its head. -/
def createClaimLines (requestId : Nat) (lines : List ClaimLine) : Tx Unit :=
  lines.forM fun line => do
    let _ ← consumableRequestItemCreate
      { requestId, inventoryItemId := line.inventoryItemId, snapshot := line.snapshot,
        qty := line.qty, purpose := line.purpose }

/-- Who borrows, and under which head, when a line of borrowed goods is issued. -/
structure BorrowKind where
  recordType : BorrowType
  userId : Option Nat
  userName : Option String
  agentRequestId : Option Nat

def createBorrowRecord (env : Environment) (kind : BorrowKind) (requestId : Nat)
    (departmentSnapshot : Json) (line : ConsumableRequestItem) (returnDays : Option Int)
    (allocations : List BatchAllocation) : Tx Unit := do
  let recordId ← borrowRecordCreate
    { recordType := kind.recordType, userId := kind.userId, userName := kind.userName,
      departmentSnapshot, agentRequestId := kind.agentRequestId, requestId,
      inventoryItemId := line.inventoryItemId, snapshot := line.snapshot, qty := line.qty,
      borrowedAt := env.now, dueAt := env.now + returnDays.getD 0 * msPerDay,
      returnedQty := 0, writtenOffQty := 0 }
  allocations.forM fun allocation => do
    let _ ← borrowBatchAllocationCreate
      { borrowRecordId := recordId, batchId := allocation.batchId, issuedQty := allocation.qty,
        returnedQty := 0 }

def issueClaimLine (env : Environment) (issue : IssueKind) (borrow : BorrowKind)
    (requestId : Nat) (departmentSnapshot : Tx Json) (locked : List InventoryItemLockRow)
    (line : ConsumableRequestItem) : Tx Unit := do
  let (row, allocations) ← issueLine issue requestId locked line.reserved
  let consumable ← Txn.query (fun v => v.consumables.find? row.consumableId)
  match consumable with
  | some c =>
      if c.type = .reusable then do
        let snapshot ← departmentSnapshot
        createBorrowRecord env borrow requestId snapshot line c.returnDays allocations
      else pure ()
  | none => pure ()
  cleanupEmptyItem line.inventoryItemId

namespace ClaimService

def quotaCheckOf (env : Environment) (userId : Nat) (line : ClaimLine) (c : Consumable) :
    QuotaCheck :=
  { key :=
      { userId, consumableId := line.consumableId,
        cycleKey :=
          match c.type with
          | .disposable =>
              some (computeCycleKey env.now (c.quotaCycle.getD .month) env.quotaResetDay)
          | .reusable => none },
    config := ⟨c.type, c.quotaCycle, c.quotaLimit, c.returnDays, c.maxHolding⟩,
    claimed := line.qty }

/-- Add a check to the merged ones: quantities under one key are summed. -/
def mergeCheck : List QuotaCheck → QuotaCheck → List QuotaCheck
  | [], check => [check]
  | existing :: rest, check =>
      if existing.key = check.key then
        { existing with claimed := existing.claimed + check.claimed } :: rest
      else existing :: mergeCheck rest check

/-- Sum the checks per key, in order of first appearance. -/
def mergeChecks (checks : List QuotaCheck) : List QuotaCheck := checks.foldl mergeCheck []

def usedQuota (v : Store) (userId consumableId : Nat) (cycleKey : String) : Int :=
  v.quotaOccupations.total fun _ q =>
    if q.userId = userId ∧ q.consumableId = consumableId ∧ q.cycleKey = some cycleKey ∧
      (q.status = .reserved ∨ q.status = .consumed) then q.qty else 0

/-- Open personal borrow quantity of an employee under one consumable, joined through the
inventory item. -/
def holdingQty (v : Store) (userId consumableId : Nat) : Int :=
  v.borrowRecords.total fun _ r =>
    if r.userId = some userId ∧ r.recordType = .personal ∧
      (v.inventoryItems.find? r.inventoryItemId).any (fun i => i.consumableId == consumableId)
    then r.openQty else 0

def reservedHolding (v : Store) (userId consumableId : Nat) : Int :=
  v.quotaOccupations.total fun _ q =>
    if q.userId = userId ∧ q.consumableId = consumableId ∧ q.quotaType = .reusableHolding ∧
      q.status = .reserved then q.qty else 0

/-- Does the claimed quantity fit under the limit? -/
def quotaFits (v : Store) (userId : Nat) (check : QuotaCheck) : Bool :=
  match check.config.type with
  | .disposable =>
      usedQuota v userId check.key.consumableId (check.key.cycleKey.getD "") + check.claimed ≤
        check.config.quotaLimit.getD 0
  | .reusable =>
      holdingQty v userId check.key.consumableId +
        reservedHolding v userId check.key.consumableId + check.claimed ≤
        check.config.maxHolding.getD 0

/-- Fail unless the claimed quantity fits; the advisory lock of the key is held. -/
def assertQuota (userId : Nat) (check : QuotaCheck) : Tx Unit :=
  Txn.act (fun _ => []) fun v =>
    if quotaFits v userId check then .ok ((), id) else .error (.of .insufficientQuota)

def quotaRow (userId requestId : Nat) (lines : List ClaimLine) (check : QuotaCheck) :
    QuotaOccupation :=
  let consumableName :=
    ((lines.find? (fun line => line.consumableId == check.key.consumableId)).map
      (·.snapshot.consumableName)).getD ""
  match check.config.type with
  | .disposable =>
      { userId, consumableId := check.key.consumableId, consumableName,
        quotaType := .disposableCycle, cycle := check.config.quotaCycle,
        cycleKey := check.key.cycleKey, requestId, qty := check.claimed, status := .reserved }
  | .reusable =>
      { userId, consumableId := check.key.consumableId, consumableName,
        quotaType := .reusableHolding, cycle := none, cycleKey := none, requestId,
        qty := check.claimed, status := .reserved }

def submit (env : Environment) (operator : Operator) (items : List ClaimRequestItem) :
    Tx (Nat × String) := do
  let itemIds := items.map (·.inventoryItemId)
  Txn.guard (decide itemIds.Nodup) (.of .itemDuplicated)
  let locked ← lockInventoryItems itemIds
  Txn.guard (locked.length == itemIds.length) (.of .resourceNotFound)
  let prepared ← items.mapM (prepareClaimLine locked)
  let lines := prepared.map (·.1)
  let quotaChecks := prepared.map (fun p => quotaCheckOf env operator.id p.1 p.2)
  acquireQuotaAdvisoryLocks (quotaChecks.map (·.key))
  let merged := mergeChecks quotaChecks
  merged.forM fun check => assertQuota operator.id check
  lines.forM fun line => reserveItem line.inventoryItemId line.qty
  let head ← createRequestHead env
    { requestType := .consumableRequest, applicantId := operator.id,
      applicantName := operator.name,
      applicantDepartmentSnapshot := departmentsJson operator.departments, proxyId := none,
      proxyName := none, refRequestId := none, remark := none }
  createClaimLines head.1 lines
  merged.forM fun check => do
    let _ ← quotaOccupationCreate (quotaRow operator.id head.1 lines check)
  pure head

def applyApproved (env : Environment) (head : SideHead) (processorId : Nat) : Tx Unit := do
  let lines ← Txn.query (fun v => claimLinesOf v head.id)
  let locked ← lockInventoryItems (lines.map (·.2.inventoryItemId))
  lines.forM fun line =>
    issueClaimLine env
      { flowType := .issue, refType := "CONSUMABLE_REQUEST", operatorId := processorId,
        operatorName := head.processorName.getD approvalSystemName }
      { recordType := .personal, userId := some head.applicantId,
        userName := some head.applicantName, agentRequestId := none }
      head.id (pure head.applicantDepartmentSnapshot) locked line.2
  quotaOccupationSettle head.id .consumed

def applyRelease (head : SideHead) : Tx Unit := do
  let lines ← Txn.query (fun v => claimLinesOf v head.id)
  releaseLines (lines.map (·.2.reserved))
  quotaOccupationSettle head.id .released

end ClaimService

namespace AgentClaimService

structure AgentRequestCreate where
  recipientIds : List Nat
  items : List ClaimRequestItem

structure Recipient where
  userId : Nat
  userName : String
  departments : List DepartmentRef

/-- No repeated recipient, not oneself, and everyone in the eligible range. -/
def prepareRecipients (env : Environment) (operator : Operator) (recipientIds : List Nat) :
    Tx (List Recipient) := do
  Txn.guard (decide recipientIds.Nodup) (.because .recipientInvalid "受领人不能重复")
  Txn.guard (!recipientIds.contains operator.id) (.because .recipientInvalid "不能为自己代领")
  recipientIds.mapM fun recipientId => do
    Txn.guard ((env.eligibleRecipients operator.id).contains recipientId)
      (.because .recipientInvalid "受领人不在可代领范围内")
    pure ⟨recipientId, env.userName recipientId, env.departmentsOf recipientId⟩

def submit (env : Environment) (operator : Operator) (dto : AgentRequestCreate) :
    Tx (Nat × String) := do
  let recipients ← prepareRecipients env operator dto.recipientIds
  let itemIds := dto.items.map (·.inventoryItemId)
  Txn.guard (decide itemIds.Nodup) (.of .itemDuplicated)
  let locked ← lockInventoryItems itemIds
  Txn.guard (locked.length == itemIds.length) (.of .resourceNotFound)
  let prepared ← dto.items.mapM (prepareClaimLine locked)
  let lines := prepared.map (·.1)
  lines.forM fun line => reserveItem line.inventoryItemId line.qty
  let head ← createRequestHead env
    { requestType := .agentRequest, applicantId := operator.id, applicantName := operator.name,
      applicantDepartmentSnapshot := departmentsJson operator.departments,
      proxyId := some operator.id, proxyName := some operator.name, refRequestId := none,
      remark := none }
  createClaimLines head.1 lines
  recipients.forM fun recipient => do
    let _ ← agentRecipientCreate
      { requestId := head.1, userId := recipient.userId, userName := recipient.userName,
        departmentSnapshot := departmentsJson recipient.departments }
  pure head

def snapshotElements : Json → List Json
  | .arr xs => xs
  | other => [other]

/-- The distinct departments of all recipients, or JSON null where there are none. -/
def mergeRecipientSnapshots (requestId : Nat) : Tx Json :=
  Txn.query fun v =>
    let elements := (v.agentRecipients.select (fun _ r => r.requestId == requestId)).flatMap
      (fun p => snapshotElements p.2.departmentSnapshot)
    if elements.isEmpty then .null else .arr (Json.distinct elements)

def applyApproved (env : Environment) (head : SideHead) (processorId : Nat) : Tx Unit := do
  let lines ← Txn.query (fun v => claimLinesOf v head.id)
  let locked ← lockInventoryItems (lines.map (·.2.inventoryItemId))
  lines.forM fun line =>
    issueClaimLine env
      { flowType := .issue, refType := "AGENT_REQUEST", operatorId := processorId,
        operatorName := head.processorName.getD approvalSystemName }
      { recordType := .agent, userId := none, userName := none, agentRequestId := some head.id }
      head.id (mergeRecipientSnapshots head.id) locked line.2

def applyRelease (head : SideHead) : Tx Unit := do
  let lines ← Txn.query (fun v => claimLinesOf v head.id)
  releaseLines (lines.map (·.2.reserved))

end AgentClaimService

end Wbme.Asset

import Wbme.Asset.AssetApproval
import Wbme.Asset.Consumables
import Wbme.Asset.Disposal
import Wbme.Asset.StockMoves

/-! # Operations of the asset system

Every entry point that writes the store, as one transaction. A serial run
executes operations one after another; an operation that fails leaves the store
as it was, but for the keys it drew from the sequence.
-/

namespace Wbme.Asset

open Lib

/-- What an operation answers. -/
inductive Reply where
  | done
  | submitted (requestId : Nat) (applicationNo : String)
  | autoCancelled (cancelled : Bool)
  | transferred (result : TransferService.TransferResult)
  | disposed (recordIds : List Nat)
  | consumable (id : Nat)
  | deleted (count : Nat)

inductive Op where
  | consumableCreate (env : Environment) (input : ConsumableService.ConsumableInput)
  | consumableUpdate (env : Environment) (id : Nat) (input : ConsumableService.ConsumableInput)
  | consumableDelete (ids : List Nat)
  | stockInSubmit (env : Environment) (operator : Operator) (dto : StockInRequestCreate)
  | stockChangeSubmit (env : Environment) (operator : Operator) (dto : StockChangeRequestCreate)
  | claimSubmit (env : Environment) (operator : Operator) (items : List ClaimRequestItem)
  | agentClaimSubmit (env : Environment) (operator : Operator)
      (dto : AgentClaimService.AgentRequestCreate)
  | returnSubmit (env : Environment) (operator : Operator)
      (items : List BorrowService.BorrowActionRequestItem)
  | writeOffSubmit (env : Environment) (operator : Operator)
      (items : List BorrowService.BorrowActionRequestItem)
  | settlementSubmit (env : Environment) (operator : Operator) (refRequestId : Nat)
      (items : List SettlementRequestItem)
  | process (env : Environment) (id : Nat) (decision : AssetApprovalService.Decision)
      (processorId : Nat) (opinion : Option String)
  | cancel (env : Environment) (id actorId : Nat)
  | overdue (cutoff now : Int) (id : Nat)
  | transfer (env : Environment) (operator : Operator)
      (dto : TransferService.InventoryTransferCreate)
  | correctBatch (env : Environment) (operator : Operator) (batchId : Nat)
      (input : InventoryService.BatchCorrectionInput)
  | dispose (env : Environment) (operator : Operator) (userId : Nat)
      (dto : DisposalService.DirectDisposal)

/-- The transaction of an operation. -/
def Op.program : Op → Tx Reply
  | .consumableCreate env input => Reply.consumable <$> ConsumableService.create env input
  | .consumableUpdate env id input => do
      ConsumableService.update env id input
      pure .done
  | .consumableDelete ids => Reply.deleted <$> ConsumableService.batchDelete ids
  | .stockInSubmit env operator dto => do
      let head ← StockInService.submit env operator dto
      pure (.submitted head.1 head.2)
  | .stockChangeSubmit env operator dto => do
      let head ← StockChangeService.submit env operator dto
      pure (.submitted head.1 head.2)
  | .claimSubmit env operator items => do
      let head ← ClaimService.submit env operator items
      pure (.submitted head.1 head.2)
  | .agentClaimSubmit env operator dto => do
      let head ← AgentClaimService.submit env operator dto
      pure (.submitted head.1 head.2)
  | .returnSubmit env operator items => do
      let head ← BorrowService.submitReturn env operator items
      pure (.submitted head.1 head.2)
  | .writeOffSubmit env operator items => do
      let head ← BorrowService.submitWriteOff env operator items
      pure (.submitted head.1 head.2)
  | .settlementSubmit env operator refRequestId items => do
      let head ← AgentSettlementService.submit env operator refRequestId items
      pure (.submitted head.1 head.2)
  | .process env id decision processorId opinion => do
      AssetApprovalService.process env id decision processorId opinion
      pure .done
  | .cancel env id actorId => do
      AssetApprovalService.cancel env id actorId
      pure .done
  | .overdue cutoff now id => Reply.autoCancelled <$> OverdueWorker.cancelOverdue cutoff now id
  | .transfer env operator dto => Reply.transferred <$> TransferService.create env operator dto
  | .correctBatch env operator batchId input => do
      InventoryService.correctBatch env operator batchId input
      pure .done
  | .dispose env operator userId dto =>
      Reply.disposed <$> DisposalService.dispose env operator userId dto

/-- The store with the sequence its keys come from. -/
structure World where
  seq : Nat
  store : Store

/-- Before the first operation. -/
def World.init : World := ⟨1, .empty⟩

def Commits (w : World) (op : Op) (w' : World) : Prop :=
  ∃ reply, op.program.run w.seq w.store = .ok (reply, w'.seq, w'.store)

/-- An operation throws: the store stays, the keys it drew are lost. -/
def Throws (w : World) (op : Op) (w' : World) : Prop :=
  ∃ e, op.program.run w.seq w.store = .error e ∧ w.seq ≤ w'.seq ∧ w'.store = w.store

/-- One operation. -/
def Step (w w' : World) : Prop := ∃ op, Commits w op w' ∨ Throws w op w'

/-- The worlds a sequence of operations leads to. -/
def Reachable (w : World) : Prop := Relation.ReflTransGen Step World.init w

/-! ## Executing -/

/-- Execute one operation; a failure changes nothing. -/
def World.step (w : World) (op : Op) : World :=
  match op.program.run w.seq w.store with
  | .ok (_, n, s) => ⟨n, s⟩
  | .error _ => w

/-- Execute a sequence of operations. -/
def World.run (w : World) (ops : List Op) : World := ops.foldl World.step w

theorem World.step_cases (w : World) (op : Op) :
    Commits w op (w.step op) ∨ Throws w op (w.step op) := by
  unfold World.step
  cases hrun : op.program.run w.seq w.store with
  | ok r => exact .inl ⟨r.1, hrun⟩
  | error e => exact .inr ⟨e, hrun, Nat.le_refl _, rfl⟩

theorem reachable_run (ops : List Op) : Reachable (World.init.run ops) := by
  suffices h : ∀ w, Reachable w → Reachable (w.run ops) from h _ .refl
  intro w hw
  induction ops generalizing w with
  | nil => exact hw
  | cons op ops ih => exact ih (w.step op) (hw.tail ⟨op, w.step_cases op⟩)

end Wbme.Asset

import Wbme.Asset.Preservation.Approval
import Wbme.Asset.Preservation.Consumables
import Wbme.Asset.Preservation.Disposal
import Wbme.Asset.Preservation.StockMoves

/-! # Runs

Every operation keeps the invariant, and so does every run. What may be empty
depends on the run: an item stays empty only after a step that wrote off its last
borrowed units.
-/

namespace Wbme.Asset

open Lib Approval

def Op.settles (s : Store) : Op → List SettleLine
  | .process _ id .approve _ _ =>
      ((s.approvalRequests.find? id).map (fun head =>
        headSettleLines s id head.requestType)).getD []
  | .dispose _ _ _ dto => dto.lines
  | _ => []

/-- An operation strips an item: it writes off the last borrowed units of an item that has
nothing on the book. -/
def Op.StripsItem (op : Op) (s : Store) (i : Nat) : Prop :=
  Strips s.inventoryItems s.borrowRecords (op.settles s) i

variable {n : Nat} {s : Store} {exempt : Nat → Prop}

theorem Op.program_safe (op : Op) (h : Inv (.exempting exempt) n s)
    (hstrips : ∀ i, op.StripsItem s i → exempt i) :
    op.program.safe (fun _ => Inv (.exempting exempt)) n s := by
  cases op with
  | consumableCreate env input =>
      exact (Txn.wp_bind _ _).mpr (ConsumableService.create_safe env input h)
  | consumableUpdate env id input =>
      exact (Txn.wp_bind _ _).mpr (ConsumableService.update_safe env id input h)
  | consumableDelete ids => exact (Txn.wp_bind _ _).mpr (ConsumableService.batchDelete_safe ids h)
  | stockInSubmit env operator dto =>
      exact (Txn.wp_bind _ _).mpr (StockInService.submit_safe env operator dto h)
  | stockChangeSubmit env operator dto =>
      exact (Txn.wp_bind _ _).mpr (StockChangeService.submit_safe env operator dto h)
  | claimSubmit env operator items =>
      exact (Txn.wp_bind _ _).mpr (ClaimService.submit_safe env operator items h)
  | agentClaimSubmit env operator dto =>
      exact (Txn.wp_bind _ _).mpr (AgentClaimService.submit_safe env operator dto h)
  | returnSubmit env operator items =>
      exact (Txn.wp_bind _ _).mpr
        (BorrowService.submitBorrowAction_safe env operator (.inl rfl) items h)
  | writeOffSubmit env operator items =>
      exact (Txn.wp_bind _ _).mpr
        (BorrowService.submitBorrowAction_safe env operator (.inr rfl) items h)
  | settlementSubmit env operator refRequestId items =>
      exact (Txn.wp_bind _ _).mpr
        (AgentSettlementService.submit_safe env operator refRequestId items h)
  | process env id decision processorId opinion =>
      refine (Txn.wp_bind _ _).mpr (AssetApprovalService.process_safe h ?_)
      rintro head hid rfl i hi
      exact hstrips i (by simpa [StripsItem, settles, hid] using hi)
  | cancel env id actorId => exact (Txn.wp_bind _ _).mpr (AssetApprovalService.cancel_safe h)
  | overdue cutoff now id => exact (Txn.wp_bind _ _).mpr (OverdueWorker.cancelOverdue_safe h)
  | transfer env operator dto =>
      exact (Txn.wp_bind _ _).mpr (TransferService.create_safe env operator dto h)
  | correctBatch env operator batchId input =>
      exact (Txn.wp_bind _ _).mpr (InventoryService.correctBatch_safe env operator batchId input h)
  | dispose env operator userId dto =>
      exact (Txn.wp_bind _ _).mpr (DisposalService.dispose_safe env operator userId dto h hstrips)

/-! ## Reachable worlds -/

def World.Ok (exempt : Nat → Prop) (w : World) : Prop := Inv (.exempting exempt) w.seq w.store

theorem World.ok_init (exempt : Nat → Prop) : World.init.Ok exempt := inv_empty exempt 1

theorem World.Ok.commits {w w' : World} {op : Op} (h : w.Ok exempt) (hc : Commits w op w')
    (hstrips : ∀ i, op.StripsItem w.store i → exempt i) : w'.Ok exempt := by
  obtain ⟨reply, hrun⟩ := hc
  have hinv := Txn.wp_of_run_ok (op.program_safe h hstrips) hrun
  exact hinv

theorem World.Ok.throws {w w' : World} {op : Op} (h : w.Ok exempt) (ht : Throws w op w') :
    w'.Ok exempt := by
  obtain ⟨e, -, hseq, hstore⟩ := ht
  unfold World.Ok at h ⊢
  rw [hstore]
  exact { h with fresh := h.fresh.mono hseq }

theorem World.Ok.step {w w' : World} (h : w.Ok fun _ => True) (hs : Step w w') :
    w'.Ok fun _ => True := by
  obtain ⟨op, hc | ht⟩ := hs
  · exact h.commits hc fun _ _ => trivial
  · exact h.throws ht

theorem Reachable.ok {w : World} (h : Reachable w) : w.Ok (fun _ => True) := by
  induction h with
  | refl => exact World.ok_init _
  | tail _ hstep ih => exact ih.step hstep

end Wbme.Asset

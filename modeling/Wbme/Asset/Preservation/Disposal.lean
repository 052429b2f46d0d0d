import Wbme.Asset.Preservation.Borrow

/-! # Disposal keeps the invariant

The lines of a disposal settle locked records. Agent records are occupied by
nothing, and personal lines name distinct records, so a locked row still says
what is open when its line comes.
-/

namespace Wbme.Asset.DisposalService

open Lib Approval

variable {n : Nat} {s : Store} {exempt : Nat → Prop}

def toLine (item : SettlementRequestItem) : SettleLine :=
  ⟨item.borrowRecordId, item.qty, item.method⟩

theorem toLine_pos (items : List SettlementRequestItem) : ∀ l ∈ items.map toLine, 0 < l.qty := by
  intro l hl
  obtain ⟨item, -, rfl⟩ := List.mem_map.mp hl
  exact item.qty_pos

variable {items : List SettlementRequestItem} {operator : Operator}

variable {agentRequestId : Option Nat} {scope : ApproverScope} {closure : List Nat}
  {env : Environment}

theorem disposeLine_safe {s₀ : Store} {done rest : List SettleLine} {r₀ : BorrowRecord}
    {disposalType : DisposalType} {item : SettlementRequestItem} (h : Inv (.exempting exempt) n s)
    (hprogress : Progress s₀ done s) (hready : LineReady exempt s₀ done (toLine item) rest r₀) :
    (disposeLine operator disposalType agentRequestId (item.borrowRecordId, r₀) item).safe
      (fun _ n' s' => Inv (.exempting exempt) n' s' ∧ Progress s₀ (done ++ [toLine item]) s')
      n s := by
  unfold disposeLine
  rw [Txn.safe, Txn.wp_bind]
  refine directDisposalRecordCreate_safe ?_
  have h₁ := h.insertDisposal (disposalRow operator disposalType agentRequestId
    (item.borrowRecordId, r₀) item)
  have hprogress₁ : Progress s₀ done
      { s with
        directDisposalRecords := s.directDisposalRecords.insert n
          (disposalRow operator disposalType agentRequestId (item.borrowRecordId, r₀) item) } :=
    { hprogress with }
  split
  · rename_i hmethod
    rw [Txn.wp_bind]
    refine Txn.wp_mono (restoreLine_safe (l := toLine item) h₁ hprogress₁ hready hmethod) ?_
    rintro flowIds n₂ s₂ ⟨h₂, hprogress₂⟩
    rw [Txn.wp_bind]
    exact directDisposalRecordUpdate_safe ⟨h₂.updateDisposal _ _, { hprogress₂ with }⟩
  · rename_i hmethod
    rw [Txn.wp_bind]
    exact writeOffLine_safe (l := toLine item) h₁ hprogress₁ hready hmethod

theorem disposeLines_safe {s₀ : Store} {locked : List BorrowRecordLockRow}
    {t : SettlementRequestItem → DisposalType} {c : BorrowRecordLockRow → Tx Unit}
    (h : Inv (.exempting exempt) n s₀) (hlocked : LockedRows s₀ locked)
    (hcheck : ∀ record, (c record).ReadOnly)
    (hkind : (∀ item ∈ items, RecordOfType s₀.borrowRecords item.borrowRecordId .agent) ∨
      (items.map (·.borrowRecordId)).Nodup)
    (hstrips : ∀ i, Strips s₀.inventoryItems s₀.borrowRecords (items.map toLine) i → exempt i) :
    (items.mapM fun (item : SettlementRequestItem) => do
      let record ← lockedRecord locked item.borrowRecordId
      c record
      disposeLine operator (t item) agentRequestId record item).safe
      (fun _ => Inv (.exempting exempt)) n s₀ := by
  have hloop := Txn.wp_mapM (E := fun _ : Failure => True) (n := n) (s := s₀) (l := items)
    (f := fun item => do
      let record ← lockedRecord locked item.borrowRecordId
      c record
      disposeLine operator (t item) agentRequestId record item)
    (fun rest _ n' s' => ∃ done : List SettlementRequestItem, done ++ rest = items ∧
      Inv (.exempting exempt) n' s' ∧ Progress s₀ (done.map toLine) s') ?_ ?_
  · refine Txn.wp_mono hloop ?_
    rintro - n' s' ⟨-, -, hdone, -⟩
    exact hdone
  · rintro item rest - n' s' ⟨done, rfl, hinv, hprogress⟩
    rw [Txn.wp_bind]
    refine lockedRecord_safe hlocked fun r₀ hr₀ => ?_
    rw [Txn.wp_bind]
    refine (hcheck _).safe fun _ => ?_
    have hready : LineReady exempt s₀ (done.map toLine) (toLine item) (rest.map toLine) r₀ :=
      { stored := hr₀
        kind := by
          rcases hkind with hagent | hnodup
          · obtain ⟨r', hr', ht'⟩ := hagent item (by simp)
            obtain rfl : r₀ = r' := by simpa [hr₀] using hr'
            exact .inl ht'
          · refine .inr fun l hl => ?_
            obtain ⟨item', hi', rfl⟩ := List.mem_map.mp hl
            rw [List.map_append, List.nodup_append] at hnodup
            exact hnodup.2.2 _ (List.mem_map_of_mem hi') _
              (List.mem_map_of_mem List.mem_cons_self)
        positive := by simpa using toLine_pos (done ++ item :: rest)
        book := bookOf_nonneg h
        strips := by simpa using hstrips }
    refine Txn.wp_mono (disposeLine_safe hinv hprogress hready) ?_
    rintro - n₁ s₁ ⟨hinv₁, hprogress₁⟩
    exact ⟨done ++ [item], by simp, hinv₁, by simpa using hprogress₁⟩
  · exact ⟨[], rfl, h, .refl _⟩

theorem disposeAgentSettle_safe {agentRequestId : Nat} (h : Inv (.exempting exempt) n s)
    (hstrips : ∀ i, Strips s.inventoryItems s.borrowRecords (items.map toLine) i → exempt i) :
    (disposeAgentSettle env operator agentRequestId items scope closure).safe
      (fun _ => Inv (.exempting exempt)) n s := by
  have hsettle : (do
      assertCoverage agentRequestId items
      let locked ← lockRecords (items.map SettlementRequestItem.borrowRecordId)
      items.mapM fun (item : SettlementRequestItem) => do
        let record ← lockedRecord locked item.borrowRecordId
        disposeLine operator .agentSettle (some agentRequestId) record item : Tx _).safe
      (fun _ => Inv (.exempting exempt)) n s := by
    rw [Txn.safe, Txn.wp_bind]
    refine Txn.wp_mono (AgentSettlementService.assertCoverage_safe agentRequestId items) ?_
    rintro - n' s' ⟨rfl, rfl, hagent⟩
    rw [Txn.wp_bind]
    refine Txn.wp_mono (lockRecords_safe _) ?_
    rintro locked n' s' ⟨rfl, rfl, hlocked⟩
    exact disposeLines_safe (c := fun _ => pure ()) h hlocked (fun _ => Txn.readOnly_pure _)
      (.inl hagent) hstrips
  unfold disposeAgentSettle
  rw [Txn.safe, Txn.wp_bind, Txn.wp_query, Txn.wp_bind]
  refine Txn.safe_orThrow fun source _ => ?_
  rw [Txn.wp_bind]
  refine Txn.safe_guard fun _ => ?_
  rw [Txn.wp_bind]
  refine Txn.safe_guard fun _ => ?_
  rw [Txn.wp_bind, Txn.wp_query, Txn.wp_bind]
  refine Txn.safe_guard fun _ => ?_
  cases scope with
  | company => exact hsettle
  | department ids =>
      dsimp only
      rw [Txn.wp_bind, Txn.wp_query, Txn.wp_bind]
      exact Txn.safe_guard fun _ => hsettle

theorem readOnly_assertDisposable (env : Environment) (scope : ApproverScope) (closure : List Nat)
    (record : BorrowRecordLockRow) : (assertDisposable env record scope closure).ReadOnly := by
  unfold assertDisposable
  split
  · refine (Txn.readOnly_guard _ _).bind fun _ => ?_
    split
    · exact Txn.readOnly_pure _
    · exact (Txn.readOnly_query _).bind fun _ => Txn.readOnly_guard _ _
  · exact Txn.readOnly_throw _

theorem disposePersonal_safe (h : Inv (.exempting exempt) n s)
    (hstrips : ∀ i, Strips s.inventoryItems s.borrowRecords (items.map toLine) i → exempt i) :
    (disposePersonal env operator items scope closure).safe
      (fun _ => Inv (.exempting exempt)) n s := by
  unfold disposePersonal
  rw [Txn.safe, Txn.wp_bind]
  refine Txn.safe_guard fun _ => ?_
  rw [Txn.wp_bind]
  refine Txn.safe_guard fun hnodup => ?_
  rw [Txn.wp_bind]
  refine Txn.wp_mono (lockRecords_safe _) ?_
  rintro locked n' s' ⟨rfl, rfl, hlocked⟩
  exact disposeLines_safe (c := fun record => assertDisposable env record scope closure)
    (t := fun item => typeOfMethod item.method) h hlocked
    (readOnly_assertDisposable env scope closure) (.inr (by simpa using hnodup)) hstrips

def DirectDisposal.lines (dto : DirectDisposal) : List SettleLine :=
  match dto.disposalType with
  | .agentSettle => dto.agentItems.map toLine
  | _ => dto.items.map toLine

theorem dispose_safe (env : Environment) (operator : Operator) (userId : Nat)
    (dto : DirectDisposal) (h : Inv (.exempting exempt) n s)
    (hstrips : ∀ i, Strips s.inventoryItems s.borrowRecords dto.lines i → exempt i) :
    (dispose env operator userId dto).safe (fun _ => Inv (.exempting exempt)) n s := by
  unfold dispose assertFunctionAccess
  rw [Txn.safe, Txn.wp_bind, Txn.wp_bind]
  refine Txn.safe_guard fun _ => Txn.safe_guard fun _ => ?_
  unfold DirectDisposal.lines at hstrips
  cases htype : dto.disposalType with
  | agentSettle =>
      rw [htype] at hstrips
      dsimp only at hstrips ⊢
      cases dto.agentRequestId with
      | none => trivial
      | some agentRequestId =>
          dsimp only
          rw [Txn.wp_bind]
          exact Txn.safe_guard fun _ => disposeAgentSettle_safe h hstrips
  | «return» =>
      rw [htype] at hstrips
      exact disposePersonal_safe h hstrips
  | writeOff =>
      rw [htype] at hstrips
      exact disposePersonal_safe h hstrips

end Wbme.Asset.DisposalService

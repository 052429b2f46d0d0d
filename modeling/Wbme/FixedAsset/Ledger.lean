import Wbme.FixedAsset.Assets
import Wbme.Lib.Along
import Mathlib.Data.List.Chain

/-! # Writing the ledger

An operation looks at an asset and checks what it is to do. Later it writes the row, with the
record of the change or of the hand-over, and commits: the row is locked from its write on, so
that these are one step. Whatever is committed in between is not looked at again.
-/

namespace Wbme.FixedAsset

open Lib AssetService

/-! ## Operations -/

inductive LedgerOperation where
  | update (dto : AssetUpdateDto)
  | schedule (dto : AssetScheduleDto)
  | scrap

/-- An operation on an asset, with what it finds around the tables. -/
structure LedgerActivity where
  env : FixedEnvironment
  operator : OperationLogOperator
  userId : Nat
  assetId : Nat
  operation : LedgerOperation

namespace LedgerActivity

def transaction (a : LedgerActivity) : FixedTx (IdempotentOutcome FixedReply) :=
  match a.operation with
  | .update dto => updateRun a.env a.operator a.userId a.assetId dto
  | .schedule dto => scheduleRun a.env a.operator a.userId a.assetId dto
  | .scrap => scrapRun a.env a.operator a.userId a.assetId

end LedgerActivity

/-! ## Looking and writing -/

/-- What an operation knows when it comes to write. -/
structure Found where
  existing : Asset
  categoryName : Option String
  currentUserName : Option String

/-- The rows, and the records in the order of their commits. -/
structure Ledger where
  assets : Table Asset
  assetChanges : List AssetChange
  assetTransfers : List AssetTransfer

def FixedStore.toLedger (s : FixedStore) : Ledger where
  assets := s.assets
  assetChanges := (s.assetChanges.select fun _ _ => true).map (·.2)
  assetTransfers := (s.assetTransfers.select fun _ _ => true).map (·.2)

def require (c : Bool) (e : Failure) : Except Failure Unit := if c then .ok () else .error e

def findLive (assets : Table Asset) (id : Nat) : Except Failure Asset :=
  match (assets.find? id).filter Asset.isLive with
  | none => .error (.of .resourceNotFound)
  | some existing => .ok existing

def changeRecord (operator : OperationLogOperator) (id : Nat)
    (changed : List (String × Json × Json)) : AssetChange :=
  ⟨id, .obj (changed.map fun c => (c.1, c.2.1)), .obj (changed.map fun c => (c.1, c.2.2)),
    operator.id, operator.name⟩

def AssetService.AssetScheduleDto.departmentName (dto : AssetScheduleDto)
    (env : FixedEnvironment) : String := (env.department dto.toDepartmentId).getD ""

def AssetService.AssetScheduleDto.userName (dto : AssetScheduleDto) (env : FixedEnvironment) :
    String := ((env.userAccount dto.toUserId).map UserAccount.name).getD ""

def AssetService.AssetScheduleDto.transfer (dto : AssetScheduleDto) (env : FixedEnvironment)
    (operator : OperationLogOperator) (id : Nat) (existing : Asset) : AssetTransfer :=
  ⟨id, existing.departmentId, existing.departmentName, dto.toDepartmentId,
    dto.departmentName env, existing.responsibleUserId, existing.responsibleUserName,
    dto.toUserId, dto.userName env, operator.id, operator.name⟩

def AssetService.AssetScheduleDto.handOver (dto : AssetScheduleDto) (env : FixedEnvironment)
    (a : Asset) : Asset :=
  { a with
    departmentId := some dto.toDepartmentId
    departmentName := some (dto.departmentName env)
    responsibleUserId := some dto.toUserId
    responsibleUserName := some (dto.userName env) }

namespace LedgerActivity

/-- An operation up to its write. -/
def look (a : LedgerActivity) (assets : Table Asset) : Except Failure Found := do
  let existing ← findLive assets a.assetId
  require (inMaintainScope a.env a.userId existing.departmentId) (.of .resourceNotFound)
  match a.operation with
  | .update dto => do
      require (!isUnderRepair existing) statusInvalid
      let categoryName ← categoryName a.env existing.categoryId dto.categoryId
      let currentUserName ← userName a.env existing.currentUserId dto.currentUserId
      pure ⟨existing, categoryName, currentUserName⟩
  | .schedule dto => do
      require (inMaintainScope a.env a.userId (some dto.toDepartmentId)) (.of .resourceNotFound)
      require (!(existing.departmentId == some dto.toDepartmentId &&
        existing.responsibleUserId == some dto.toUserId)) (.of .assetTransferNoChange)
      require (a.env.belongs dto.toUserId dto.toDepartmentId) (.of .assigneeDepartmentMismatch)
      pure ⟨existing, none, none⟩
  | .scrap => do
      require (existing.usageStatus != .scrapped) statusInvalid
      require (!isUnderRepair existing) statusInvalid
      pure ⟨existing, none, none⟩

/-- The row that an operation writes. -/
def write (a : LedgerActivity) (found : Found) (row : Asset) : Asset :=
  match a.operation with
  | .update dto => dto.writeOver a.env found.categoryName found.currentUserName row
  | .schedule dto => dto.handOver a.env row
  | .scrap => { row with usageStatus := .scrapped }

/-- The change records that an operation adds. -/
def changes (a : LedgerActivity) (found : Found) : List AssetChange :=
  match a.operation with
  | .update dto =>
      let changed := changedFields a.env found.existing dto
      if changed.isEmpty then [] else [changeRecord a.operator a.assetId changed]
  | .schedule _ => []
  | .scrap =>
      [changeRecord a.operator a.assetId
        [("usageStatus", .str (AssetStatus.code found.existing.usageStatus),
          .str (AssetStatus.code .scrapped))]]

def transfers (a : LedgerActivity) (found : Found) : List AssetTransfer :=
  match a.operation with
  | .schedule dto => [dto.transfer a.env a.operator a.assetId found.existing]
  | _ => []

def commit (a : LedgerActivity) (found : Found) (l : Ledger) : Ledger where
  assets := l.assets.update a.assetId (a.write found)
  assetChanges := l.assetChanges ++ a.changes found
  assetTransfers := l.assetTransfers ++ a.transfers found

end LedgerActivity

/-! ## Operations beside each other -/

structure LedgerSession where
  activity : LedgerActivity
  found : Option Found

structure LedgerRun where
  ledger : Ledger
  sessions : Table LedgerSession

inductive LedgerEvent where
  | start (i : Nat) (activity : LedgerActivity)
  | advance (i : Nat)
  /-- A session that fails for another reason, or finds its request answered already. -/
  | abort (i : Nat)

namespace LedgerRun

def endSession (r : LedgerRun) (i : Nat) : LedgerRun :=
  { r with sessions := r.sessions.deleteMany fun j _ => j == i }

def step (r : LedgerRun) : LedgerEvent → LedgerRun
  | .start i a =>
      if (r.sessions.find? i).isSome then r
      else { r with sessions := r.sessions.insert i ⟨a, none⟩ }
  | .abort i => r.endSession i
  | .advance i =>
      match r.sessions.find? i with
      | none => r
      | some ⟨a, none⟩ =>
          match a.look r.ledger.assets with
          | .error _ => r.endSession i
          | .ok found => { r with sessions := r.sessions.insert i ⟨a, some found⟩ }
      | some ⟨a, some found⟩ =>
          match r.ledger.assets.find? a.assetId with
          | none => r.endSession i
          | some _ => { r with ledger := a.commit found r.ledger }.endSession i

def opened (l : Ledger) : LedgerRun := ⟨l, .empty⟩

end LedgerRun

section Alone

variable {s : FixedStore} {n : Nat}

theorem rows_insert {α : Type} {t : Table α} (h : t.Below n) (r : α) :
    ((t.insert n r).select fun _ _ => true).map (·.2) =
      (t.select fun _ _ => true).map (·.2) ++ [r] := by
  rw [Table.select_insert_of_below h]
  simp

structure RecordsBelow (n : Nat) (s : FixedStore) : Prop where
  changes : s.assetChanges.Below n
  transfers : s.assetTransfers.Below n

/-- A program that only checks something comes to what the check says. -/
def Checks {α : Type} (p : FixedTx α) (x : Except Failure α) (n : Nat) (s : FixedStore) : Prop :=
  ∀ Q E, p.wp Q E n s ↔ (∀ a, x = .ok a → Q a n s) ∧ ∀ e, x = .error e → E e

/-- A program fails as a check does, or goes on with what was found. -/
def Continues {α β : Type} (p : FixedTx α) (x : Except Failure β) (post : β → FixedStore → Prop)
    (n : Nat) (s : FixedStore) : Prop :=
  p.wp (fun _ _ s' => ∃ b, x = .ok b ∧ post b s') (fun e => x = .error e) n s

section Checks

variable {α β γ : Type}

theorem Checks.bind {p : FixedTx α} {x : Except Failure α} {f : α → FixedTx β}
    {g : α → Except Failure γ} {post : γ → FixedStore → Prop} (h : Checks p x n s)
    (hf : ∀ a, x = .ok a → Continues (f a) (g a) post n s) :
    Continues (p >>= f) (x >>= g) post n s := by
  refine (Txn.wp_bind _ _).mpr ((h _ _).mpr ⟨fun a ha => ?_, fun e he => ?_⟩)
  · subst ha
    exact hf a rfl
  · subst he
    rfl

theorem Continues.done {p : FixedTx α} {b : β} {post : β → FixedStore → Prop}
    (h : p.wp (fun _ _ s' => post b s') (fun _ => False) n s) : Continues p (pure b) post n s := by
  rw [Txn.wp_iff_run] at h
  unfold Continues
  rw [Txn.wp_iff_run]
  cases hrun : p.run n s with
  | error e => simp [hrun] at h
  | ok r =>
      simp only [hrun] at h ⊢
      exact ⟨b, rfl, h⟩

theorem checks_findLiveAsset (id : Nat) : Checks (findLiveAsset id) (findLive s.assets id) n s := by
  intro Q E
  unfold findLiveAsset findLive
  rw [Txn.wp_bind, Txn.wp_query, Txn.wp_orThrow]
  cases (s.assets.find? id).filter Asset.isLive with
  | none => simp
  | some x => simp

theorem checks_require {p : FixedTx Unit} {c : Bool} {e : Failure}
    (h : ∀ Q E, p.wp Q E n s ↔ (c = true → Q () n s) ∧ (c = false → E e)) :
    Checks p (require c e) n s := by
  intro Q E
  rw [h]
  cases c with
  | false => simp [require]
  | true =>
      simp only [require, if_true, true_implies]
      exact ⟨fun hq => ⟨fun _ => hq.1, nofun⟩, fun hq => ⟨hq.1 (), nofun⟩⟩

theorem checks_guard (c : Bool) (e : Failure) : Checks (Txn.guard c e) (require c e) n s :=
  checks_require fun _ _ => Txn.wp_guard c e

theorem checks_assertMaintainScope (env : FixedEnvironment) (userId : Nat)
    (departmentId : Option Nat) : Checks (assertMaintainScope env userId departmentId)
      (require (inMaintainScope env userId departmentId) (.of .resourceNotFound)) n s :=
  checks_require fun _ _ => wp_assertMaintainScope

theorem checks_liftExcept (x : Except Failure α) : Checks (Txn.liftExcept x) x n s := by
  intro Q E
  cases x with
  | error e => simp [Txn.liftExcept]
  | ok a => simp [Txn.liftExcept]

end Checks

theorem find?_of_findLive {assets : Table Asset} {id : Nat} {x : Asset}
    (h : findLive assets id = .ok x) : assets.find? id = some x := by
  unfold findLive at h
  cases hfound : (assets.find? id).filter Asset.isLive with
  | none =>
      rw [hfound] at h
      cases h
  | some y =>
      rw [hfound] at h
      obtain rfl := Except.ok.inj h
      exact (Option.filter_eq_some_iff.mp hfound).1

theorem continues_transaction (a : LedgerActivity) (h : RecordsBelow n s) :
    Continues a.transaction (a.look s.assets)
      (fun found s' => s'.toLedger = a.commit found s.toLedger) n s := by
  obtain ⟨env, operator, userId, id, operation⟩ := a
  cases operation with
  | update dto =>
      refine (checks_findLiveAsset id).bind fun x hx => ?_
      refine (checks_assertMaintainScope env userId x.departmentId).bind fun _ _ => ?_
      refine (checks_guard _ statusInvalid).bind fun _ _ => ?_
      refine (checks_liftExcept _).bind fun categoryName _ => ?_
      refine (checks_liftExcept _).bind fun currentUserName _ => .done ?_
      refine (Txn.wp_bind _ _).mpr (wp_updateAsset (find?_of_findLive hx) ?_)
      unfold LedgerActivity.commit LedgerActivity.changes LedgerActivity.transfers
      dsimp only
      split
      · simp only [List.append_nil]
        rfl
      · refine (Txn.wp_bind _ _).mpr (wp_writeAssetChange ?_)
        show FixedStore.toLedger _ = _
        rw [FixedStore.toLedger, rows_insert h.changes]
        simp only [List.append_nil]
        rfl
  | schedule dto =>
      refine (checks_findLiveAsset id).bind fun x hx => ?_
      refine (checks_assertMaintainScope env userId x.departmentId).bind fun _ _ => ?_
      refine (checks_assertMaintainScope env userId _).bind fun _ _ => ?_
      refine (checks_guard _ _).bind fun _ _ => ?_
      refine (checks_guard _ _).bind fun _ _ => .done ?_
      refine (Txn.wp_bind _ _).mpr (Txn.wp_create rfl ?_)
      refine (Txn.wp_bind _ _).mpr (wp_updateAsset (find?_of_findLive hx) ?_)
      show FixedStore.toLedger _ = _
      rw [FixedStore.toLedger, rows_insert h.transfers]
      simp only [LedgerActivity.commit, LedgerActivity.changes, List.append_nil]
      rfl
  | scrap =>
      refine (checks_findLiveAsset id).bind fun x hx => ?_
      refine (checks_assertMaintainScope env userId x.departmentId).bind fun _ _ => ?_
      refine (checks_guard _ statusInvalid).bind fun _ _ => ?_
      refine (checks_guard _ statusInvalid).bind fun _ _ => .done ?_
      refine (Txn.wp_bind _ _).mpr (wp_updateAsset (find?_of_findLive hx) ?_)
      refine (Txn.wp_bind _ _).mpr (wp_writeAssetChange ?_)
      show FixedStore.toLedger _ = _
      rw [FixedStore.toLedger, rows_insert h.changes]
      simp only [LedgerActivity.commit, LedgerActivity.transfers, List.append_nil]
      rfl

end Alone

end Wbme.FixedAsset

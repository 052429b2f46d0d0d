import Wbme.FixedAsset.Assets
import Wbme.FixedAsset.Repairs

/-! # Operations on fixed assets -/

namespace Wbme.FixedAsset

open Lib AssetService RepairService

inductive FixedOperation where
  | update (id : Nat) (dto : AssetUpdateDto)
  | schedule (id : Nat) (dto : AssetScheduleDto)
  | scrap (id : Nat) (confirm : Bool)
  | batchDelete (ids : List Nat)
  | register (dto : RepairOrderCreateDto)
  | cancel (id : Nat)
  | start (id : Nat) (startedAt : Option String)
  | complete (id : Nat) (dto : RepairCompleteDto)

/-- An operation of an operator, with what it finds around the tables. -/
structure FixedActivity where
  env : FixedEnvironment
  operator : OperationLogOperator
  operation : FixedOperation
  idempotencyKey : Option String
  fingerprint : String

def FixedActivity.call (a : FixedActivity) : FixedCall :=
  let userId := a.operator.id
  match a.operation with
  | .update id dto =>
      AssetService.update a.env a.operator userId id dto a.idempotencyKey a.fingerprint
  | .schedule id dto =>
      AssetService.schedule a.env a.operator userId id dto a.idempotencyKey a.fingerprint
  | .scrap id confirm =>
      AssetService.scrap a.env a.operator userId id confirm a.idempotencyKey a.fingerprint
  | .batchDelete ids =>
      AssetService.batchDelete a.env a.operator userId ids a.idempotencyKey a.fingerprint
  | .register dto => RepairService.register a.env a.operator userId dto a.fingerprint
  | .cancel id => RepairService.cancel a.env a.operator userId id a.idempotencyKey a.fingerprint
  | .start id startedAt =>
      RepairService.start a.env a.operator userId id startedAt a.idempotencyKey a.fingerprint
  | .complete id dto => RepairService.complete a.env a.operator userId id dto a.fingerprint

end Wbme.FixedAsset

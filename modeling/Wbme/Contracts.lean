import Mathlib.Data.List.Basic

/-! # Shared contracts

Error codes, JSON values, department references and function access, as the
services exchange them. A business failure carries its code and the details the
service attaches; the remaining failures are the database's own.
-/

namespace Wbme

/-- Business error codes raised by the modelled services. -/
inductive ErrorCode where
  | resourceNotFound
  | validationFailed
  | systemNotOpen
  | statusConflict
  | statusNotAllowed
  | scopeNotCovered
  | rejectReasonRequired
  | pendingLimitReached
  | applicantDeactivated
  | positionApplyStale
  | insufficientStock
  | insufficientQuota
  | stockConflict
  | itemDuplicated
  | consumableReferenced
  | consumableDisabled
  | unitLocked
  | batchCorrectionForbidden
  | locationInvalidTarget
  | settlementCoverageIncomplete
  | disposalForbidden
  | recipientInvalid
  | idempotencyKeyReused
  | overtimeOverlap
  | overtimeDateOutOfWindow
  | overtimeBatchRejected
  | overtimeEmployeeNotActive
  | holidayApiUnavailable
  | multiDepartmentApplyForbidden
  | positionDepartmentMismatch
  | positionApplyTargetUnavailable
  | departmentHasChildren
  | organizationCycle
  | restoreTargetStale
  | unauthorized
  | forbidden
  | conflict
  | accountDeactivated
  | userNotActive
  | userBatchBlocked
  | alreadySuperAdmin
  | notSuperAdmin
  | lastSuperAdmin
  | hrServiceUnavailable
  | grantVersionConflict
  | grantSelfForbidden
  | superAdminTargetOnly
  | grantBatchBlocked
  | functionNotRegistered
  | scopeNotSupported
  | permissionManagementGrantForbidden
  | projectKeyConflict
  | cellFieldNotAllowed
  | unclassifiedNameConflict
  | dictSemanticLocked
  | importConfirmMismatch
  | importPreviewStale
  | importYearRequiredForNew
  | importRowLimitExceeded
  | importArchiveLimitExceeded
  | importSheetInvalid
  | importTimeout
  | requestTimeout
  | groupNameConflict
  | groupBatchBlocked
  | assetStatusInvalid
  | maintenanceActiveExists
  | assetReferenced
  | assigneeDepartmentMismatch
  | assetTransferNoChange
  | qrInvalid
  | qrRevoked
  | invitationInvalid
  | phoneTaken
  | dingtalkOrgMismatch
  | dingtalkAlreadyBound
  | dingtalkStateInvalid
  | phoneMissingFromDingtalk
  | flowSessionInvalid
  | userNotPending
  | accountActivated
  | passwordPolicyFailed
  | resetSelfUnavailable
  | pendingAccountExists
  | backupLockBusy
  | restoreInProgress
  | restoreSuperAdminOnly
  | backupUnverified
  | emergencyBackupFailed
  | dependencyUnavailable
  | systemMaintenance
  | diskSpaceCritical
  | rowLimitExceeded
  | exportAlreadyRunning
  | exportTimeout
  | invalidCredentials
  | accountPendingActivation
  | accountLocked
  | oldPasswordIncorrect
  | sessionExpired
  | profileChangePendingExists
  | dingtalkImportConfigMissing
  | dingtalkUnavailable
deriving DecidableEq

/-- What a transaction can fail with: a business exception with its details, or
the violation of a database constraint, or an update that misses its row, or the
end of the time a transaction is given, or a statement behind one that has failed. -/
inductive Failure where
  | business (code : ErrorCode) (details : List (String × String))
  | uniqueViolation (index : String)
  | checkViolation (constraint : String)
  | foreignKeyViolation (constraint : String)
  | recordMissing (table : String)
  | transactionExpired
  | transactionAborted
deriving DecidableEq

/-- A business exception without details. -/
def Failure.of (code : ErrorCode) : Failure := .business code []

/-- A business exception with a reason. -/
def Failure.because (code : ErrorCode) (reason : String) : Failure :=
  .business code [("reason", reason)]

/-! ## JSON snapshots -/

/-- JSON values; the numbers of snapshots are integers. -/
inductive Json where
  | null
  | bool (b : Bool)
  | num (n : Int)
  | str (s : String)
  | arr (xs : List Json)
  | obj (fields : List (String × Json))

/-- The value of a field of an object. -/
def Json.field? (fields : List (String × Json)) (name : String) : Option Json :=
  (fields.find? (fun f => f.1 == name)).map (·.2)

mutual

/-- Structural equality of JSON values. -/
def Json.beq : Json → Json → Bool
  | .null, .null => true
  | .bool a, .bool b => a == b
  | .num a, .num b => a == b
  | .str a, .str b => a == b
  | .arr xs, .arr ys => Json.beqList xs ys
  | .obj fs, .obj gs => Json.beqFields fs gs
  | _, _ => false

def Json.beqList : List Json → List Json → Bool
  | [], [] => true
  | x :: xs, y :: ys => x.beq y && Json.beqList xs ys
  | _, _ => false

def Json.beqFields : List (String × Json) → List (String × Json) → Bool
  | [], [] => true
  | (k, x) :: fs, (l, y) :: gs => k == l && x.beq y && Json.beqFields fs gs
  | _, _ => false

end

mutual

theorem Json.eq_of_beq : ∀ x y : Json, x.beq y = true → x = y
  | .null, .null, _ => rfl
  | .bool _, .bool _, h => by simpa [Json.beq] using h
  | .num _, .num _, h => by simpa [Json.beq] using h
  | .str _, .str _, h => by simpa [Json.beq] using h
  | .arr xs, .arr ys, h => by rw [Json.eq_of_beqList xs ys (by simpa [Json.beq] using h)]
  | .obj fs, .obj gs, h => by rw [Json.eq_of_beqFields fs gs (by simpa [Json.beq] using h)]

theorem Json.eq_of_beqList : ∀ xs ys : List Json, Json.beqList xs ys = true → xs = ys
  | [], [], _ => rfl
  | x :: xs, y :: ys, h => by
      rw [Json.beqList, Bool.and_eq_true] at h
      rw [Json.eq_of_beq x y h.1, Json.eq_of_beqList xs ys h.2]

theorem Json.eq_of_beqFields :
    ∀ fs gs : List (String × Json), Json.beqFields fs gs = true → fs = gs
  | [], [], _ => rfl
  | (k, x) :: fs, (l, y) :: gs, h => by
      simp only [Json.beqFields, Bool.and_eq_true, beq_iff_eq] at h
      rw [h.1.1, Json.eq_of_beq x y h.1.2, Json.eq_of_beqFields fs gs h.2]

end

mutual

theorem Json.beq_self : ∀ x : Json, x.beq x = true
  | .null => rfl
  | .bool _ => by simp [Json.beq]
  | .num _ => by simp [Json.beq]
  | .str _ => by simp [Json.beq]
  | .arr xs => by rw [Json.beq, Json.beqList_self xs]
  | .obj fs => by rw [Json.beq, Json.beqFields_self fs]

theorem Json.beqList_self : ∀ xs : List Json, Json.beqList xs xs = true
  | [] => rfl
  | x :: xs => by rw [Json.beqList, Json.beq_self x, Json.beqList_self xs]; rfl

theorem Json.beqFields_self : ∀ fs : List (String × Json), Json.beqFields fs fs = true
  | [] => rfl
  | (k, x) :: fs => by simp [Json.beqFields, Json.beq_self x, Json.beqFields_self fs]

end

/-- The distinct values of a list, each at its first place. -/
def Json.distinct (xs : List Json) : List Json :=
  xs.foldl (fun seen x => if seen.any (fun y => y.beq x) then seen else seen ++ [x]) []

/-- A department of an employee, as the org view returns it. -/
structure DepartmentRef where
  id : Nat
  name : String
deriving DecidableEq

/-- The snapshot object of one department. -/
def DepartmentRef.toJson (d : DepartmentRef) : Json :=
  .obj [("id", .num d.id), ("name", .str d.name)]

/-- The snapshot array the submit paths write. -/
def departmentsJson (ds : List DepartmentRef) : Json := .arr (ds.map DepartmentRef.toJson)

/-! ## Function access -/

inductive DataScope where
  | company
  | department
  | self
deriving DecidableEq

/-- Registration, openness and grant of a function for one user. -/
structure FunctionAccess where
  registered : Bool
  systemOpen : Bool
  systemName : String
  allowed : Bool
  dataScope : Option DataScope

end Wbme

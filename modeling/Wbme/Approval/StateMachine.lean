import Wbme.Contracts

/-! # The approval state machine

Statuses, actions and the checks every approval path shares: which transition a
processing action asks for, which transitions are legal, when an opinion is
required, and how a lost conditional update is reported.
-/

namespace Wbme.Approval

inductive ApprovalStatus where
  | draft
  | pending
  | approved
  | rejected
  | cancelled
deriving DecidableEq

inductive ApprovalAction where
  | submit
  | cancel
  | approve
  | reject
  | autoCancel
deriving DecidableEq

inductive CancelSource where
  | user
  | accountDeactivated
  | overdue
deriving DecidableEq

inductive ProcessAction where
  | approve
  | reject
  | cancel
  | autoCancel
deriving DecidableEq

/-- Target status and action fields of an intent. -/
structure ResolvedTransition where
  status : ApprovalStatus
  action : ApprovalAction
  cancelSource : Option CancelSource
  requiresOpinion : Bool

def terminalApprovalStatuses : List ApprovalStatus := [.approved, .rejected, .cancelled]

def isTerminalApprovalStatus (status : ApprovalStatus) : Bool :=
  terminalApprovalStatuses.contains status

def isTerminalAction (action : ApprovalAction) : Bool := action != .submit

def ApprovalAction.leadsTo : ApprovalAction → ApprovalStatus → Bool
  | .approve, .approved => true
  | .reject, .rejected => true
  | .cancel, .cancelled => true
  | .autoCancel, .cancelled => true
  | _, _ => false

/-- Only a draft can be submitted and only a pending head can be closed. -/
def transitionAllowed (fromStatus toStatus : ApprovalStatus) : Bool :=
  (fromStatus == .draft && toStatus == .pending) ||
    (fromStatus == .pending &&
      (toStatus == .approved || toStatus == .rejected || toStatus == .cancelled))

def ApprovalStatus.text : ApprovalStatus → String
  | .draft => "DRAFT"
  | .pending => "PENDING"
  | .approved => "APPROVED"
  | .rejected => "REJECTED"
  | .cancelled => "CANCELLED"

def assertTransitionAllowed (fromStatus toStatus : ApprovalStatus) : Except Failure Unit :=
  if transitionAllowed fromStatus toStatus then .ok ()
  else .error (.business .statusNotAllowed [("from", fromStatus.text), ("to", toStatus.text)])

def resolveProcessTransition (action : ProcessAction) (cancelSource : Option CancelSource) :
    Except Failure ResolvedTransition :=
  match action with
  | .approve => .ok ⟨.approved, .approve, none, false⟩
  | .reject => .ok ⟨.rejected, .reject, none, true⟩
  | .cancel =>
      .ok ⟨.cancelled, .cancel,
        some (if cancelSource = some .accountDeactivated then .accountDeactivated else .user),
        false⟩
  | .autoCancel =>
      match cancelSource with
      | some .overdue => .ok ⟨.cancelled, .autoCancel, some .overdue, false⟩
      | some .accountDeactivated => .ok ⟨.cancelled, .autoCancel, some .accountDeactivated, false⟩
      | _ => .error (.because .statusNotAllowed "AUTO_CANCEL_REQUIRES_CANCEL_SOURCE")

/-- The characters `trim` strips: white space, line terminators and the byte order mark. -/
def isTrimmed (c : Char) : Bool :=
  let n := c.toNat
  (9 ≤ n && n ≤ 13) || n == 32 || n == 160 || n == 5760 || (8192 ≤ n && n ≤ 8202) ||
    n == 8232 || n == 8233 || n == 8239 || n == 8287 || n == 12288 || n == 65279

/-- An opinion is blank when nothing is left of it after `trim`. -/
def isBlankOpinion (opinion : Option String) : Bool :=
  match opinion with
  | none => true
  | some text => text.toList.all isTrimmed

def assertOpinionIfRequired (requiresOpinion : Bool) (opinion : Option String) :
    Except Failure Unit :=
  if requiresOpinion && isBlankOpinion opinion then .error (.of .rejectReasonRequired)
  else .ok ()

/-- A conditional update that hit no row lost the race. -/
def throwIfTransitionLost (updatedCount : Nat) : Except Failure Unit :=
  if updatedCount = 0 then .error (.of .statusConflict) else .ok ()

def assertPending (status : ApprovalStatus) : Except Failure Unit :=
  if status = .pending then .ok ()
  else .error (.business .statusNotAllowed [("status", status.text)])

/-! ## Facts about transitions -/

theorem resolveProcessTransition_closes {action : ProcessAction}
    {cancelSource : Option CancelSource} {t : ResolvedTransition}
    (h : resolveProcessTransition action cancelSource = .ok t) :
    isTerminalApprovalStatus t.status = true ∧ t.action.leadsTo t.status = true ∧
      transitionAllowed .pending t.status = true := by
  cases action with
  | approve => cases h; decide
  | reject => cases h; decide
  | cancel => cases h; exact ⟨rfl, rfl, rfl⟩
  | autoCancel =>
      match cancelSource, h with
      | some .overdue, h => cases h; decide
      | some .accountDeactivated, h => cases h; decide

end Wbme.Approval

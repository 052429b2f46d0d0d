import Wbme.Auth.Store

/-! # Logging in, changing and resetting a password

An operation is the sequence of its accesses to the database and the cache, with what it
computes in between. A transaction is one access: it holds the rows it writes until it ends,
and what it only reads no operation here writes.
-/

namespace Wbme.Auth

open Lib Backstage

/-! ## Accesses -/

/-- The account that logs in under a number. -/
def AuthStore.findUserByPhone (s : AuthStore) (phone : String) : Option (Nat × User) :=
  (s.users.select fun _ u => u.phone == phone && u.deletedAt.isNone &&
    (u.status == .pendingActivation || u.status == .active)).head?

/-- A new hash ends every session of the account. -/
def writePassword (userId : Nat) (newHash : String) (users : Table User) : Table User :=
  users.update userId fun u =>
    { u with passwordHash := some newHash, sessionVersion := u.sessionVersion + 1 }

/-- An empty text counts as none. -/
def given (text : Option String) : Option String := text.filter (· ≠ "")

structure ResetInput where
  unionId : String
  mobile : String
  stateCode : String
  newPassword : String
deriving DecidableEq

/-- The invitation of a reset that an administrator began is used up; others use none. -/
def consumeInvitation (now userId : Nat) (tokenHash : Option String) (s : AuthStore) :
    Except Failure AuthStore :=
  match given tokenHash with
  | none => .ok s
  | some hash =>
      let isOpen := fun (_ : Nat) (r : Invitation) =>
        r.userId == userId && r.tokenHash == hash && r.status == .valid && now < r.expiresAt
      if (s.activationInvitations.select isOpen).isEmpty then .error (.of .invitationInvalid)
      else .ok
        { s with
          activationInvitations := s.activationInvitations.updateMany isOpen fun r =>
            { r with status := .used, usedAt := some now } }

/-- The number follows the identity provider, unless another account has it. -/
def syncFromDingtalk (userId : Nat) (stateCode mobile : String) (s : AuthStore) : AuthStore :=
  match normalizePhoneFromParts stateCode mobile with
  | none => s
  | some phone =>
      let isOccupied := !(s.users.select fun id u => u.phone == phone && id != userId &&
        u.deletedAt.isNone && (u.status == .pendingActivation || u.status == .active)).isEmpty
      if (s.users.find? userId).all (fun u => u.phone == phone) || isOccupied then s
      else { s with users := s.users.update userId fun u => { u with phone := phone } }

def confirmReset (now userId : Nat) (tokenHash : Option String) (newHash : String)
    (input : ResetInput) (s : AuthStore) : Except Failure AuthStore := do
  let s ← consumeInvitation now userId tokenHash s
  let bindings := s.dingtalkBindings.select fun _ b =>
    b.userId == userId && b.dingtalkUnionId == input.unionId && b.isBound
  if bindings.isEmpty then .error (.of .dingtalkOrgMismatch)
  else if (s.users.find? userId).any (fun u => u.status == .active) then
    .ok (syncFromDingtalk userId input.stateCode input.mobile
      { s with users := writePassword userId newHash s.users })
  else .error (.of .userNotActive)

def assertFlow (now flowId : Nat) (purpose : FlowPurpose) (s : AuthStore) :
    Except Failure FlowSessionData × AuthStore :=
  match s.flows.find? flowId with
  | none => (.error (.of .flowSessionInvalid), s)
  | some flow =>
      if flow.expiresAt ≤ now then
        (.error (.of .flowSessionInvalid),
          { s with flows := s.flows.deleteMany fun id _ => id == flowId })
      else if flow.purpose ≠ purpose then (.error (.of .flowSessionInvalid), s)
      else (.ok flow, s)

/-! ## Operations under way -/

/-- What an operation is told from outside at a step. -/
structure Outside where
  /-- The account or the address is locked. -/
  locked : Bool
  salt : Nat
  absoluteTimeoutMs : Nat

inductive LoginPhase where
  | entered (phone password : String) (rememberMe : Bool)
  /-- The account of the number was read. -/
  | found (userId : Nat) (user : User) (password : String) (rememberMe : Bool)
  /-- The password belongs to the hash that was read. -/
  | verified (userId : Nat) (rememberMe : Bool)
  /-- The account was read once more, for its session. -/
  | loaded (userId : Nat) (user : User) (rememberMe : Bool)

inductive ChangePhase where
  | entered (userId : Nat) (currentPassword newPassword : String)
  /-- The account was read. -/
  | found (userId : Nat) (user : User) (currentPassword newPassword : String)
  /-- The current password was right, the new one is hashed. -/
  | hashed (userId : Nat) (newHash : String)

inductive ResetPhase where
  | entered (flowId : Nat) (input : ResetInput)
  /-- The flow session was read. -/
  | asserted (flowId : Nat) (flow : FlowSessionData) (input : ResetInput)
  /-- The new password is hashed. -/
  | hashed (flowId userId : Nat) (tokenHash : Option String) (newHash : String)
      (input : ResetInput)
  /-- The transaction is committed. -/
  | committed (flowId : Nat)

inductive AuthProcess where
  | login (p : LoginPhase)
  | changePassword (p : ChangePhase)
  | resetConfirm (p : ResetPhase)

inductive AuthReply where
  | loggedIn (userId sessionId sessionExpiresAt : Nat) (rememberMe : Bool)
  | ok

inductive Progress where
  | goes (p : AuthProcess)
  | returns (r : Except Failure AuthReply)

def Progress.fails (e : Failure) : Progress := .returns (.error e)

def Progress.refuses (code : ErrorCode) : Progress := .fails (.of code)

section Steps

variable (a : Argon2) (now sequence : Nat) (x : Outside) (s : AuthStore)

/-- A lock is told before anything else. -/
def assertNotLocked (otherwise : Progress) : Progress :=
  if x.locked then .refuses .accountLocked else otherwise

/-- What follows from the account that was read. -/
def checkLogin (userId : Nat) (user : User) (password : String) (rememberMe : Bool) : Progress :=
  assertNotLocked x <|
    match user.status with
    | .deactivated => .refuses .accountDeactivated
    | .pendingActivation => .refuses .accountPendingActivation
    | .active =>
        if a.verifyPassword password (user.passwordHash.getD "") then
          .goes (.login (.verified userId rememberMe))
        else .refuses .invalidCredentials

def LoginPhase.step : LoginPhase → AuthStore × Progress
  | .entered phone password rememberMe =>
      match (normalizePhoneInput phone).bind s.findUserByPhone with
      | none => (s, assertNotLocked x (.refuses .invalidCredentials))
      | some (userId, user) => (s, .goes (.login (.found userId user password rememberMe)))
  | .found userId user password rememberMe =>
      (s, checkLogin a x userId user password rememberMe)
  | .verified userId rememberMe =>
      match s.users.find? userId with
      | none => (s, .refuses .unauthorized)
      | some user =>
          if user.status = .active then (s, .goes (.login (.loaded userId user rememberMe)))
          else (s, .refuses .unauthorized)
  | .loaded userId user rememberMe =>
      let expiresAt := now + x.absoluteTimeoutMs
      let data : SessionData := ⟨userId, user.sessionVersion, rememberMe, expiresAt, now⟩
      ({ s with sessions := s.sessions.insert sequence data },
        .returns (.ok (.loggedIn userId sequence expiresAt rememberMe)))

def ChangePhase.step : ChangePhase → AuthStore × Progress
  | .entered userId currentPassword newPassword =>
      match (s.users.find? userId).filter fun u => u.deletedAt.isNone && u.status == .active with
      | none => (s, .refuses .unauthorized)
      | some user => (s, .goes (.changePassword (.found userId user currentPassword newPassword)))
  | .found userId user currentPassword newPassword =>
      if ¬ a.verifyPassword currentPassword (user.passwordHash.getD "") then
        (s, .refuses .oldPasswordIncorrect)
      else if ¬ validatePolicy newPassword then (s, .refuses .passwordPolicyFailed)
      else (s, .goes (.changePassword (.hashed userId (a.hash x.salt newPassword))))
  | .hashed userId newHash =>
      match s.users.find? userId with
      | none => (s, .fails (.recordMissing "users"))
      | some _ =>
          ({ s with users := writePassword userId newHash s.users }, .returns (.ok .ok))

def ResetPhase.step : ResetPhase → AuthStore × Progress
  | .entered flowId input =>
      match assertFlow now flowId .reset s with
      | (.error e, s) => (s, .fails e)
      | (.ok flow, s) => (s, .goes (.resetConfirm (.asserted flowId flow input)))
  | .asserted flowId flow input =>
      match flow.userId with
      | none => (s, .refuses .flowSessionInvalid)
      | some userId =>
          if given flow.unionId ≠ some input.unionId then (s, .refuses .flowSessionInvalid)
          else if ¬ validatePolicy input.newPassword then (s, .refuses .passwordPolicyFailed)
          else
            (s, .goes (.resetConfirm (.hashed flowId userId flow.tokenHash
              (a.hash x.salt input.newPassword) input)))
  | .hashed flowId userId tokenHash newHash input =>
      match confirmReset now userId tokenHash newHash input s with
      | .error e => (s, .fails e)
      | .ok s => (s, .goes (.resetConfirm (.committed flowId)))
  | .committed flowId =>
      ({ s with flows := s.flows.deleteMany fun id _ => id == flowId }, .returns (.ok .ok))

def AuthProcess.step : AuthProcess → AuthStore × Progress
  | .login p => p.step a now sequence x s
  | .changePassword p => p.step a x s
  | .resetConfirm p => p.step a now x s

end Steps

/-! ## The service -/

inductive AuthOperation where
  | login (phone password : String) (rememberMe : Bool)
  | changePassword (userId : Nat) (currentPassword newPassword : String)
  | resetConfirm (flowId : Nat) (input : ResetInput)

def AuthOperation.enter : AuthOperation → AuthProcess
  | .login phone password rememberMe => .login (.entered phone password rememberMe)
  | .changePassword userId currentPassword newPassword =>
      .changePassword (.entered userId currentPassword newPassword)
  | .resetConfirm flowId input => .resetConfirm (.entered flowId input)

/-- The clock, the next identifier, the store and the operations under way. -/
structure AuthWorld where
  clock : Nat
  sequence : Nat
  store : AuthStore
  running : Table AuthProcess

/-- An operation starts, makes a step or is lost; the guard is asked about a session, a session
ends by itself or on request; time passes. -/
inductive AuthEvent where
  | start (i : Nat) (op : AuthOperation)
  | advance (i : Nat) (x : Outside)
  | crash (i : Nat)
  | request (sessionId : Nat)
  | destroy (sessionId : Nat)
  | pass (d : Nat)

namespace AuthWorld

def start (clock sequence : Nat) (s : AuthStore) : AuthWorld := ⟨clock, sequence, s, .empty⟩

/-- The operations after one of them made a step. -/
def proceed (w : AuthWorld) (i : Nat) : Progress → Table AuthProcess
  | .goes p => w.running.insert i p
  | .returns _ => w.running.deleteMany fun j _ => j == i

def step (a : Argon2) (w : AuthWorld) : AuthEvent → AuthWorld
  | .start i op =>
      match w.running.find? i with
      | some _ => w
      | none => { w with running := w.running.insert i op.enter }
  | .advance i x =>
      match w.running.find? i with
      | none => w
      | some p =>
          let r := p.step a w.clock w.sequence x w.store
          { w with sequence := w.sequence + 1, store := r.1, running := w.proceed i r.2 }
  | .crash i => { w with running := w.running.deleteMany fun j _ => j == i }
  | .request sessionId => { w with store := (canActivate w.clock sessionId w.store).2 }
  | .destroy sessionId => { w with store := w.store.destroySession sessionId }
  | .pass d => { w with clock := w.clock + d }

end AuthWorld

end Wbme.Auth

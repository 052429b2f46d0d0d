import Wbme.Auth.Phone
import Wbme.Backstage.Store

/-! # Accounts, sessions and reset flows

The accounts with their bindings and invitations are tables of the database; sessions and
flow sessions are keys of the cache, under identifiers nobody guesses. The guard in front of
every request compares a session with the account as it is now.
-/

namespace Wbme.Auth

open Lib Backstage

/-! ## Passwords -/

structure Argon2 where
  /-- The hash of a password under a salt. -/
  hash : Nat → String → String
  /-- Does a hash belong to a password? A malformed hash throws. -/
  verify : String → String → Option Bool

def Argon2.verifyPassword (a : Argon2) (password passwordHash : String) : Bool :=
  (a.verify passwordHash password).getD false

def passwordMinLength : Nat := 8

def passwordMaxLength : Nat := 32

def codeUnits (text : String) : Nat :=
  (text.toList.map fun c => if c.toNat < 0x10000 then 1 else 2).sum

def validatePolicy (password : String) : Bool :=
  passwordMinLength ≤ codeUnits password && codeUnits password ≤ passwordMaxLength

/-! ## Rows and keys -/

structure DingtalkBinding where
  userId : Nat
  dingtalkUnionId : String
  isBound : Bool

/-- An invitation to activate an account or to reset its password. -/
structure Invitation where
  userId : Nat
  tokenHash : String
  status : InvitationStatus
  expiresAt : Nat
  usedAt : Option Nat

structure SessionData where
  u : Nat
  sv : Nat
  rm : Bool
  abs : Nat
  iat : Nat
deriving DecidableEq

inductive FlowPurpose where
  | registration
  | activation
  | reset
deriving DecidableEq

structure FlowSessionData where
  purpose : FlowPurpose
  userId : Option Nat
  unionId : Option String
  mobile : Option String
  stateCode : Option String
  tokenHash : Option String
  expiresAt : Nat
deriving DecidableEq

structure AuthStore where
  users : Table User
  dingtalkBindings : Table DingtalkBinding
  activationInvitations : Table Invitation
  sessions : Table SessionData
  flows : Table FlowSessionData

/-! ## Sessions -/

/-- The account of a session, unless it was deleted. -/
def AuthStore.sessionUser (s : AuthStore) (userId : Nat) : Option User :=
  (s.users.find? userId).filter fun user => user.deletedAt.isNone

def AuthStore.destroySession (s : AuthStore) (sessionId : Nat) : AuthStore :=
  { s with sessions := s.sessions.deleteMany fun id _ => id == sessionId }

/-- The guard: the user of a session, or why the request is refused. -/
def canActivate (now sessionId : Nat) (s : AuthStore) : Except Failure Nat × AuthStore :=
  match s.sessions.find? sessionId with
  | none => (.error (.of .sessionExpired), s)
  | some data =>
      if data.abs ≤ now then (.error (.of .sessionExpired), s.destroySession sessionId)
      else
        match s.sessionUser data.u with
        | none => (.error (.of .sessionExpired), s.destroySession sessionId)
        | some user =>
            if user.sessionVersion ≠ data.sv then
              (.error (.of .sessionExpired), s.destroySession sessionId)
            else
              match user.status with
              | .active => (.ok data.u, s)
              | .deactivated =>
                  (.error (.of .accountDeactivated), s.destroySession sessionId)
              | .pendingActivation =>
                  (.error (.of .accountPendingActivation), s.destroySession sessionId)

/-- A session that the guard lets pass. -/
def AuthStore.isValid (s : AuthStore) (now sessionId : Nat) : Bool :=
  (canActivate now sessionId s).1.isOk

theorem version_of_isValid {s : AuthStore} {now sessionId : Nat}
    (h : s.isValid now sessionId = true) {data : SessionData}
    (hdata : s.sessions.find? sessionId = some data) :
    ∃ user, s.users.find? data.u = some user ∧ user.sessionVersion = data.sv := by
  unfold AuthStore.isValid canActivate at h
  rw [hdata] at h
  dsimp only at h
  split at h
  · cases h
  · cases huser : s.sessionUser data.u with
    | none =>
        rw [huser] at h
        cases h
    | some user =>
        rw [huser] at h
        dsimp only at h
        split at h
        · cases h
        · rename_i hversion
          exact ⟨user, (Option.filter_eq_some_iff.mp huser).1, not_not.mp hversion⟩

theorem canActivate_store (now sessionId : Nat) (s : AuthStore) :
    (canActivate now sessionId s).2 = s ∨
      (canActivate now sessionId s).2 = s.destroySession sessionId := by
  unfold canActivate
  cases s.sessions.find? sessionId with
  | none => exact .inl rfl
  | some data =>
      dsimp only
      split
      · exact .inr rfl
      · cases s.sessionUser data.u with
        | none => exact .inr rfl
        | some user =>
            dsimp only
            split
            · exact .inr rfl
            · cases user.status with
              | active => exact .inl rfl
              | deactivated => exact .inr rfl
              | pendingActivation => exact .inr rfl

end Wbme.Auth

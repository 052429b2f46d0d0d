import Wbme.Auth.Operations
import Wbme.Lib.Along

/-! # Sessions and passwords

A log beside a run notes every new password, and how many there had been when an operation
read the account whose hash it checks. A session outlives a new password when its login read
the hash before it and the session version after it.
-/

namespace Wbme.Auth

open Lib Backstage

/-! ## The log -/

/-- A password was written; by a change, which had read the account when so many had been
written before, or by a reset. -/
structure PasswordWrite where
  userId : Nat
  verifiedAt : Option Nat
deriving DecidableEq

def PasswordWrite.isReset (write : PasswordWrite) : Bool := write.verifiedAt.isNone

/-- A world, the passwords written so far in their order, and how many there were when an
operation read its account and when the login behind a session did. -/
structure CredentialLog where
  world : AuthWorld
  writes : List PasswordWrite
  readAt : Nat → Nat
  openedAt : Nat → Option Nat

/-- What the log notes of a step. -/
inductive Note where
  | read
  | write (userId : Nat) (isReset : Bool)
  | session

/-- What an operation is about to do. -/
def AuthProcess.note (now : Nat) (s : AuthStore) : AuthProcess → Option Note
  | .login (.entered _ _ _) => some .read
  | .login (.loaded _ _ _) => some .session
  | .changePassword (.entered _ _ _) => some .read
  | .changePassword (.hashed userId _) => (s.users.find? userId).map fun _ => .write userId false
  | .resetConfirm (.hashed _ userId tokenHash newHash input) =>
      (confirmReset now userId tokenHash newHash input s).toOption.map fun _ => .write userId true
  | _ => none

namespace CredentialLog

def start (clock sequence : Nat) (s : AuthStore) : CredentialLog :=
  ⟨.start clock sequence s, [], fun _ => 0, fun _ => none⟩

/-- What an event is about to do, and which operation does it. -/
def note (l : CredentialLog) : AuthEvent → Option (Nat × Note)
  | .advance i _ =>
      ((l.world.running.find? i).bind (AuthProcess.note l.world.clock l.world.store)).map (i, ·)
  | _ => none

def step (a : Argon2) (l : CredentialLog) (e : AuthEvent) : CredentialLog :=
  let world := l.world.step a e
  match l.note e with
  | some (i, .read) =>
      { l with world, readAt := fun j => if j = i then l.writes.length else l.readAt j }
  | some (i, .write userId isReset) =>
      { l with
        world
        writes := l.writes ++ [⟨userId, if isReset then none else some (l.readAt i)⟩] }
  | some (i, .session) =>
      { l with
        world
        openedAt := fun id =>
          if id = l.world.sequence then some (l.readAt i) else l.openedAt id }
  | none => { l with world }

end CredentialLog

/-- The passwords written for an account since so many had been written in all. -/
def writesSince (writes : List PasswordWrite) (n userId : Nat) : List PasswordWrite :=
  (writes.drop n).filter fun write => write.userId == userId

/-! ## The law -/

/-- No password was written since the login of a valid session read the account; and between
the reading of a change and its write no reset wrote. -/
structure CredentialsHold (l : CredentialLog) : Prop where
  sessions : ∀ sessionId n data, l.openedAt sessionId = some n →
    l.world.store.sessions.find? sessionId = some data →
    l.world.store.isValid l.world.clock sessionId = true →
    writesSince l.writes n data.u = []
  changes : ∀ i write n, l.writes[i]? = some write → write.verifiedAt = some n →
    ∀ other ∈ writesSince (l.writes.take i) n write.userId, other.isReset = false

/-- A login with the right password, between its two readings of the account. -/
def AuthProcess.presents (a : Argon2) (userId : Nat) : AuthProcess → Bool
  | .login (.found id user password _) =>
      id == userId && user.status == .active &&
        a.verifyPassword password (user.passwordHash.getD "")
  | .login (.verified id _) => id == userId
  | _ => false

/-- A change with the right password, between its reading and its write. -/
def AuthProcess.replaces (a : Argon2) (userId : Nat) : AuthProcess → Bool
  | .changePassword (.found id user currentPassword newPassword) =>
      id == userId && a.verifyPassword currentPassword (user.passwordHash.getD "") &&
        validatePolicy newPassword
  | .changePassword (.hashed id _) => id == userId
  | _ => false

/-- No password is written while a login presents the old one, and none by a reset while a
change is about to replace the old one. -/
structure Undisturbed (a : Argon2) (l : CredentialLog) (e : AuthEvent) : Prop where
  logins : ∀ i userId isReset, l.note e = some (i, .write userId isReset) →
    ∀ j p, l.world.running.find? j = some p → p.presents a userId = false
  changes : ∀ i userId, l.note e = some (i, .write userId true) →
    ∀ j p, l.world.running.find? j = some p → p.replaces a userId = false

section Kept

variable {a : Argon2} {users users' : Table User} {writes : List PasswordWrite}

/-- A version that was read is the account's, with no password written since, or was passed. -/
def Current (users : Table User) (writes : List PasswordWrite) (userId n version : Nat) : Prop :=
  n ≤ writes.length ∧ ∀ user, users.find? userId = some user →
    version ≤ user.sessionVersion ∧
      (user.sessionVersion = version → writesSince writes n userId = [])

/-- What holds of an operation that read its account when `n` passwords had been written. -/
structure ProcessKept (a : Argon2) (users : Table User) (writes : List PasswordWrite) (n : Nat)
    (p : AuthProcess) : Prop where
  presents : ∀ userId, p.presents a userId = true → writesSince writes n userId = []
  replaces : ∀ userId, p.replaces a userId = true →
    ∀ write ∈ writesSince writes n userId, write.isReset = false
  loaded : ∀ userId user rememberMe, p = .login (.loaded userId user rememberMe) →
    Current users writes userId n user.sessionVersion

/-- Every account keeps its version, but for one that gets the next. -/
def Raises (userId : Nat) (users users' : Table User) : Prop :=
  ∀ k user', users'.find? k = some user' → ∃ user, users.find? k = some user ∧
    user'.sessionVersion = user.sessionVersion + if k = userId then 1 else 0

theorem writesSince_length (userId : Nat) : writesSince writes writes.length userId = [] := by
  simp [writesSince]

theorem writesSince_append {n : Nat} (h : n ≤ writes.length) (write : PasswordWrite)
    (userId : Nat) : writesSince (writes ++ [write]) n userId =
      writesSince writes n userId ++ if write.userId = userId then [write] else [] := by
  unfold writesSince
  rw [List.drop_append_of_le_length h, List.filter_append]
  congr 1
  by_cases hid : write.userId = userId <;> simp [hid]

theorem Current.write {userId n version : Nat} (h : Current users writes userId n version)
    {write : PasswordWrite} (hraises : Raises write.userId users users') :
    Current users' (writes ++ [write]) userId n version := by
  obtain ⟨hn, h⟩ := h
  refine ⟨by rw [List.length_append]; omega, fun user' huser' => ?_⟩
  obtain ⟨user, huser, hversion⟩ := hraises userId user' huser'
  obtain ⟨hle, hsince⟩ := h user huser
  by_cases hid : userId = write.userId
  · rw [if_pos hid] at hversion
    exact ⟨by omega, fun hsame => by omega⟩
  · rw [if_neg hid, Nat.add_zero] at hversion
    rw [hversion, writesSince_append hn, if_neg (Ne.symm hid), List.append_nil]
    exact ⟨hle, hsince⟩

theorem ProcessKept.write {n : Nat} {p : AuthProcess} (h : ProcessKept a users writes n p)
    (hn : n ≤ writes.length) {write : PasswordWrite} (hraises : Raises write.userId users users')
    (hlogin : p.presents a write.userId = false)
    (hchange : write.isReset = true → p.replaces a write.userId = false) :
    ProcessKept a users' (writes ++ [write]) n p where
  presents userId hp := by
    rw [writesSince_append hn, h.presents userId hp]
    by_cases hid : write.userId = userId
    · rw [hid, hp] at hlogin
      cases hlogin
    · rw [if_neg hid]
      rfl
  replaces userId hp other hother := by
    rw [writesSince_append hn] at hother
    rcases List.mem_append.mp hother with hold | hnew
    · exact h.replaces userId hp other hold
    · by_cases hid : write.userId = userId
      · rw [if_pos hid] at hnew
        obtain rfl := List.mem_singleton.mp hnew
        rw [← Bool.not_eq_true]
        intro hreset
        have hnot := hchange hreset
        rw [hid, hp] at hnot
        cases hnot
      · rw [if_neg hid] at hnew
        cases hnew
  loaded userId user rememberMe hp := (h.loaded userId user rememberMe hp).write hraises

theorem ProcessKept.of_idle {n : Nat} {p : AuthProcess} (hpresents : ∀ u, p.presents a u = false)
    (hreplaces : ∀ u, p.replaces a u = false)
    (hloaded : ∀ u user r, p ≠ .login (.loaded u user r)) : ProcessKept a users writes n p where
  presents u h := by rw [hpresents u] at h; cases h
  replaces u h := by rw [hreplaces u] at h; cases h
  loaded u user r h := absurd h (hloaded u user r)

theorem processKept_enter (op : AuthOperation) (n : Nat) :
    ProcessKept a users writes n op.enter := by
  cases op <;> exact .of_idle (fun _ => rfl) (fun _ => rfl) (fun _ _ _ h => by cases h)

theorem processKept_reset (p : ResetPhase) (n : Nat) :
    ProcessKept a users writes n (.resetConfirm p) :=
  .of_idle (fun _ => rfl) (fun _ => rfl) (fun _ _ _ h => by cases h)

end Kept

section Steps

variable {a : Argon2} {now sequence : Nat} {x : Outside} {s : AuthStore}

theorem raises_writePassword (userId : Nat) (newHash : String) (users : Table User) :
    Raises userId users (writePassword userId newHash users) := by
  intro k user' huser'
  rw [writePassword, Table.find?_update] at huser'
  obtain ⟨user, huser, rfl⟩ := Option.map_eq_some_iff.mp huser'
  refine ⟨user, huser, ?_⟩
  by_cases hk : k = userId <;> simp [hk]

theorem raises_syncFromDingtalk {userId : Nat} {users : Table User}
    (h : Raises userId users s.users) (stateCode mobile : String) :
    Raises userId users (syncFromDingtalk userId stateCode mobile s).users := by
  unfold syncFromDingtalk
  cases normalizePhoneFromParts stateCode mobile with
  | none => exact h
  | some phone =>
      dsimp only
      split
      · exact h
      · intro k user' huser'
        rw [Table.find?_update] at huser'
        obtain ⟨user, huser, hsame⟩ := Option.map_eq_some_iff.mp huser'
        obtain ⟨old, hold, hversion⟩ := h k user huser
        refine ⟨old, hold, ?_⟩
        rw [← hversion, ← hsame]
        by_cases hk : k = userId <;> simp [hk]

theorem syncFromDingtalk_sessions (userId : Nat) (stateCode mobile : String) :
    (syncFromDingtalk userId stateCode mobile s).sessions = s.sessions := by
  unfold syncFromDingtalk
  cases normalizePhoneFromParts stateCode mobile with
  | none => rfl
  | some phone =>
      dsimp only
      split <;> rfl

theorem consumeInvitation_ok {userId : Nat} {tokenHash : Option String} {s' : AuthStore}
    (h : consumeInvitation now userId tokenHash s = .ok s') :
    s'.users = s.users ∧ s'.sessions = s.sessions := by
  unfold consumeInvitation at h
  cases hgiven : given tokenHash with
  | none =>
      rw [hgiven] at h
      cases h
      exact ⟨rfl, rfl⟩
  | some hash =>
      rw [hgiven] at h
      dsimp only at h
      split at h
      · cases h
      · cases h
        exact ⟨rfl, rfl⟩

theorem confirmReset_ok {userId : Nat} {tokenHash : Option String} {newHash : String}
    {input : ResetInput} {s' : AuthStore}
    (h : confirmReset now userId tokenHash newHash input s = .ok s') :
    Raises userId s.users s'.users ∧ s'.sessions = s.sessions := by
  unfold confirmReset at h
  cases hconsume : consumeInvitation now userId tokenHash s with
  | error e =>
      rw [hconsume] at h
      cases h
  | ok s₁ =>
      rw [hconsume] at h
      obtain ⟨husers, hsessions⟩ := consumeInvitation_ok hconsume
      change (if _ then _ else if _ then _ else _) = _ at h
      split at h
      · cases h
      · split at h
        · cases h
          refine ⟨raises_syncFromDingtalk ?_ _ _, ?_⟩
          · rw [← husers]
            exact raises_writePassword userId newHash s₁.users
          · rw [syncFromDingtalk_sessions]
            exact hsessions
        · cases h

theorem assertFlow_store (flowId : Nat) (purpose : FlowPurpose) :
    (assertFlow now flowId purpose s).2.users = s.users ∧
      (assertFlow now flowId purpose s).2.sessions = s.sessions := by
  unfold assertFlow
  cases s.flows.find? flowId with
  | none => exact ⟨rfl, rfl⟩
  | some flow =>
      dsimp only
      split
      · exact ⟨rfl, rfl⟩
      · split <;> exact ⟨rfl, rfl⟩

/-- What a step of an operation does, as the log notes it. -/
inductive Did (p : AuthProcess) (s s' : AuthStore) (sequence : Nat) : Option Note → Prop
  | still (note : Option Note) (hnote : note = none ∨ note = some .read)
      (husers : s'.users = s.users) (hsessions : s'.sessions = s.sessions) :
      Did p s s' sequence note
  | write (userId : Nat) (isReset : Bool) (husers : Raises userId s.users s'.users)
      (hsessions : s'.sessions = s.sessions) : Did p s s' sequence (some (.write userId isReset))
  | session (userId : Nat) (user : User) (rememberMe : Bool) (data : SessionData)
      (hp : p = .login (.loaded userId user rememberMe)) (hu : data.u = userId)
      (hsv : data.sv = user.sessionVersion) (husers : s'.users = s.users)
      (hsessions : s'.sessions = s.sessions.insert sequence data) :
      Did p s s' sequence (some .session)

theorem LoginPhase.did (p : LoginPhase) :
    Did (.login p) s (p.step a now sequence x s).1 sequence (AuthProcess.note now s (.login p)) := by
  cases p with
  | entered phone password rememberMe =>
      refine .still _ (.inr rfl) ?_ ?_ <;>
        · simp only [LoginPhase.step]
          cases (normalizePhoneInput phone).bind s.findUserByPhone <;> rfl
  | found userId user password rememberMe => exact .still _ (.inl rfl) rfl rfl
  | verified userId rememberMe =>
      refine .still _ (.inl rfl) ?_ ?_ <;>
        · simp only [LoginPhase.step]
          cases s.users.find? userId with
          | none => rfl
          | some user => dsimp only; split <;> rfl
  | loaded userId user rememberMe =>
      exact .session userId user rememberMe _ rfl rfl rfl rfl rfl

theorem ChangePhase.did (p : ChangePhase) :
    Did (.changePassword p) s (p.step a x s).1 sequence
      (AuthProcess.note now s (.changePassword p)) := by
  cases p with
  | entered userId currentPassword newPassword =>
      refine .still _ (.inr rfl) ?_ ?_ <;>
        · simp only [ChangePhase.step]
          cases (s.users.find? userId).filter fun u => u.deletedAt.isNone && u.status == .active <;>
            rfl
  | found userId user currentPassword newPassword =>
      refine .still _ (.inl rfl) ?_ ?_ <;>
        · simp only [ChangePhase.step]
          split
          · rfl
          · split <;> rfl
  | hashed userId newHash =>
      simp only [ChangePhase.step, AuthProcess.note]
      cases s.users.find? userId with
      | none => exact .still _ (.inl rfl) rfl rfl
      | some user => exact .write userId false (raises_writePassword userId newHash s.users) rfl

theorem ResetPhase.did (p : ResetPhase) :
    Did (.resetConfirm p) s (p.step a now x s).1 sequence
      (AuthProcess.note now s (.resetConfirm p)) := by
  cases p with
  | entered flowId input =>
      obtain ⟨husers, hsessions⟩ : (assertFlow now flowId .reset s).2.users = s.users ∧
          (assertFlow now flowId .reset s).2.sessions = s.sessions := assertFlow_store flowId .reset
      simp only [ResetPhase.step]
      refine .still _ (.inl rfl) ?_ ?_
      · split <;> rename_i heq <;> rw [heq] at husers <;> exact husers
      · split <;> rename_i heq <;> rw [heq] at hsessions <;> exact hsessions
  | asserted flowId flow input =>
      refine .still _ (.inl rfl) ?_ ?_ <;>
        · simp only [ResetPhase.step]
          cases flow.userId with
          | none => rfl
          | some userId =>
              dsimp only
              split
              · rfl
              · split <;> rfl
  | hashed flowId userId tokenHash newHash input =>
      simp only [ResetPhase.step, AuthProcess.note]
      cases hconfirm : confirmReset now userId tokenHash newHash input s with
      | error e => exact .still _ (.inl rfl) rfl rfl
      | ok s' =>
          obtain ⟨husers, hsessions⟩ := confirmReset_ok hconfirm
          exact .write userId true husers hsessions
  | committed flowId => exact .still _ (.inl rfl) rfl rfl

theorem AuthProcess.did (p : AuthProcess) :
    Did p s (p.step a now sequence x s).1 sequence (p.note now s) := by
  cases p with
  | login p => exact p.did
  | changePassword p => exact p.did
  | resetConfirm p => exact p.did

theorem AuthProcess.goes_kept {p p' : AuthProcess} {writes : List PasswordWrite} {n n' : Nat}
    (h : ProcessKept a s.users writes n p) (hn : n ≤ writes.length)
    (hread : p.note now s = some .read → n' = writes.length)
    (hrest : p.note now s ≠ some .read → n' = n)
    (hgoes : (p.step a now sequence x s).2 = .goes p') : ProcessKept a s.users writes n' p' := by
  cases p with
  | login p =>
      cases p with
      | entered phone password rememberMe =>
          simp only [AuthProcess.step, LoginPhase.step] at hgoes
          cases hfound : (normalizePhoneInput phone).bind s.findUserByPhone with
          | none =>
              rw [hfound] at hgoes
              dsimp only [assertNotLocked] at hgoes
              split at hgoes <;> cases hgoes
          | some found =>
              rw [hfound] at hgoes
              cases hgoes
              rw [hread rfl]
              refine ⟨fun u _ => writesSince_length u, fun u hu => ?_, fun _ _ _ hl => ?_⟩
              · cases hu
              · cases hl
      | found userId user password rememberMe =>
          simp only [AuthProcess.step, LoginPhase.step, checkLogin, assertNotLocked] at hgoes
          split at hgoes
          · cases hgoes
          · split at hgoes
            · cases hgoes
            · cases hgoes
            · rename_i hactive
              split at hgoes
              · rename_i hverify
                cases hgoes
                rw [hrest (by simp [AuthProcess.note])]
                refine ⟨fun u hu => ?_, fun u hu => ?_, fun _ _ _ hl => ?_⟩
                · refine h.presents u ?_
                  simp only [AuthProcess.presents] at hu ⊢
                  rw [hu, hactive, hverify]
                  rfl
                · cases hu
                · cases hl
              · cases hgoes
      | verified userId rememberMe =>
          simp only [AuthProcess.step, LoginPhase.step] at hgoes
          cases huser : s.users.find? userId with
          | none => rw [huser] at hgoes; cases hgoes
          | some user =>
              rw [huser] at hgoes
              dsimp only at hgoes
              split at hgoes
              · cases hgoes
                rw [hrest (by simp [AuthProcess.note])]
                refine ⟨fun u hu => ?_, fun u hu => ?_, fun u _ _ hl => ?_⟩
                · cases hu
                · cases hu
                · cases hl
                  refine ⟨hn, fun user' huser' => ?_⟩
                  obtain rfl := Option.some.inj (huser.symm.trans huser')
                  exact ⟨Nat.le_refl _, fun _ => h.presents userId (by simp [AuthProcess.presents])⟩
              · cases hgoes
      | loaded userId user rememberMe => cases hgoes
  | changePassword p =>
      cases p with
      | entered userId currentPassword newPassword =>
          simp only [AuthProcess.step, ChangePhase.step] at hgoes
          split at hgoes
          · cases hgoes
          · cases hgoes
            rw [hread rfl]
            refine ⟨fun u hu => ?_, fun u _ write hwrite => ?_, fun _ _ _ hl => ?_⟩
            · cases hu
            · rw [writesSince_length] at hwrite
              cases hwrite
            · cases hl
      | found userId user currentPassword newPassword =>
          simp only [AuthProcess.step, ChangePhase.step] at hgoes
          split at hgoes
          · cases hgoes
          · rename_i hverify
            split at hgoes
            · cases hgoes
            · rename_i hpolicy
              cases hgoes
              rw [hrest (by simp [AuthProcess.note])]
              refine ⟨fun u hu => ?_, fun u hu => ?_, fun _ _ _ hl => ?_⟩
              · cases hu
              · refine h.replaces u ?_
                simp only [AuthProcess.replaces] at hu ⊢
                rw [hu, not_not.mp hverify, not_not.mp hpolicy]
                rfl
              · cases hl
      | hashed userId newHash =>
          simp only [AuthProcess.step, ChangePhase.step] at hgoes
          split at hgoes <;> cases hgoes
  | resetConfirm p =>
      have hreset : ∃ q, p' = .resetConfirm q := by
        cases p with
        | entered flowId input =>
            simp only [AuthProcess.step, ResetPhase.step] at hgoes
            split at hgoes
            · cases hgoes
            · cases hgoes
              exact ⟨_, rfl⟩
        | asserted flowId flow input =>
            simp only [AuthProcess.step, ResetPhase.step] at hgoes
            split at hgoes
            · cases hgoes
            · split at hgoes
              · cases hgoes
              · split at hgoes
                · cases hgoes
                · cases hgoes
                  exact ⟨_, rfl⟩
        | hashed flowId userId tokenHash newHash input =>
            simp only [AuthProcess.step, ResetPhase.step] at hgoes
            split at hgoes
            · cases hgoes
            · cases hgoes
              exact ⟨_, rfl⟩
        | committed flowId => cases hgoes
      obtain ⟨q, rfl⟩ := hreset
      exact processKept_reset q _

end Steps

/-! ## The invariant -/

/-- What holds of the operations under way, of the sessions that logins opened, and of the
writes so far. -/
structure Kept (a : Argon2) (l : CredentialLog) : Prop where
  readAt : ∀ i, l.readAt i ≤ l.writes.length
  running : ∀ i p, l.world.running.find? i = some p →
    ProcessKept a l.world.store.users l.writes (l.readAt i) p
  opened : ∀ sessionId n data, l.openedAt sessionId = some n →
    l.world.store.sessions.find? sessionId = some data →
    Current l.world.store.users l.writes data.u n data.sv
  changes : ∀ i write n, l.writes[i]? = some write → write.verifiedAt = some n →
    ∀ other ∈ writesSince (l.writes.take i) n write.userId, other.isReset = false

section Run

variable {a : Argon2} {l : CredentialLog}

theorem kept_start (clock sequence : Nat) (s : AuthStore) :
    Kept a (CredentialLog.start clock sequence s) where
  readAt i := Nat.le_refl _
  running i p hp := by simp [CredentialLog.start, AuthWorld.start] at hp
  opened sessionId n data h := by simp [CredentialLog.start] at h
  changes i write n h := by simp [CredentialLog.start] at h

theorem Kept.credentialsHold (h : Kept a l) : CredentialsHold l where
  sessions sessionId n data hopened hdata hvalid := by
    obtain ⟨user, huser, hversion⟩ := version_of_isValid hvalid hdata
    exact ((h.opened sessionId n data hopened hdata).2 user huser).2 hversion
  changes := h.changes

theorem find?_proceed {w : AuthWorld} {i j : Nat} {next : Progress} {p : AuthProcess}
    (h : (w.proceed i next).find? j = some p) :
    (j ≠ i ∧ w.running.find? j = some p) ∨ (j = i ∧ next = .goes p) := by
  cases next with
  | goes p' =>
      simp only [AuthWorld.proceed, Table.find?_insert] at h
      by_cases hj : j = i
      · rw [if_pos hj] at h
        exact .inr ⟨hj, congrArg Progress.goes (Option.some.inj h)⟩
      · rw [if_neg hj] at h
        exact .inl ⟨hj, h⟩
  | returns r =>
      simp only [AuthWorld.proceed, Table.find?_deleteMany] at h
      obtain ⟨q, hq, hkeep⟩ := Option.bind_eq_some_iff.mp h
      by_cases hj : j = i
      · simp [hj] at hkeep
      · rw [if_neg (by simpa using hj)] at hkeep
        cases hkeep
        exact .inl ⟨hj, hq⟩

variable {s : AuthStore} {data : SessionData} {world : AuthWorld}

theorem find?_destroySession {sessionId id : Nat}
    (h : (s.destroySession sessionId).sessions.find? id = some data) :
    s.sessions.find? id = some data := by
  simp only [AuthStore.destroySession, Table.find?_deleteMany] at h
  obtain ⟨found, hfound, hkeep⟩ := Option.bind_eq_some_iff.mp h
  split at hkeep
  · cases hkeep
  · cases hkeep
    exact hfound

theorem Kept.still (h : Kept a l) {readAt : Nat → Nat}
    (husers : world.store.users = l.world.store.users)
    (hsessions : ∀ id data, world.store.sessions.find? id = some data →
      l.world.store.sessions.find? id = some data) (hread : ∀ i, readAt i ≤ l.writes.length)
    (hrunning : ∀ i p, world.running.find? i = some p →
      ProcessKept a l.world.store.users l.writes (readAt i) p) : Kept a { l with world, readAt } where
  readAt := hread
  running i p hp := by
    show ProcessKept a world.store.users _ _ _
    rw [husers]
    exact hrunning i p hp
  opened sessionId n data hopened hdata := by
    show Current world.store.users _ _ _ _
    rw [husers]
    exact h.opened sessionId n data hopened (hsessions sessionId data hdata)
  changes := h.changes

theorem changes_append {writes : List PasswordWrite} {write : PasswordWrite}
    (h : ∀ i write n, writes[i]? = some write → write.verifiedAt = some n →
      ∀ other ∈ writesSince (writes.take i) n write.userId, other.isReset = false)
    (hnew : ∀ n, write.verifiedAt = some n →
      ∀ other ∈ writesSince writes n write.userId, other.isReset = false)
    (i : Nat) (w : PasswordWrite) (n : Nat) (hw : (writes ++ [write])[i]? = some w)
    (hn : w.verifiedAt = some n) :
    ∀ other ∈ writesSince ((writes ++ [write]).take i) n w.userId, other.isReset = false := by
  rcases Nat.lt_trichotomy i writes.length with hlt | heq | hgt
  · rw [List.getElem?_append_left hlt] at hw
    rw [List.take_append_of_le_length (Nat.le_of_lt hlt)]
    exact h i w n hw hn
  · subst heq
    rw [List.getElem?_concat_length] at hw
    obtain rfl := Option.some.inj hw
    rw [List.take_left']
    · exact hnew n hn
    · rfl
  · rw [List.getElem?_eq_none (by rw [List.length_append]; simp only [List.length_singleton]; omega)]
      at hw
    cases hw

theorem Kept.write (h : Kept a l) {world : AuthWorld} {write : PasswordWrite}
    (husers : Raises write.userId l.world.store.users world.store.users)
    (hsessions : world.store.sessions = l.world.store.sessions)
    (hrunning : ∀ i p, world.running.find? i = some p →
      ProcessKept a l.world.store.users l.writes (l.readAt i) p ∧
        p.presents a write.userId = false ∧
        (write.isReset = true → p.replaces a write.userId = false))
    (hnew : ∀ n, write.verifiedAt = some n →
      ∀ other ∈ writesSince l.writes n write.userId, other.isReset = false) :
    Kept a { l with world, writes := l.writes ++ [write] } where
  readAt i := by
    show l.readAt i ≤ (l.writes ++ [write]).length
    rw [List.length_append]
    exact Nat.le_add_right_of_le (h.readAt i)
  running i p hp := by
    obtain ⟨hkept, hlogin, hchange⟩ := hrunning i p hp
    exact hkept.write (h.readAt i) husers hlogin hchange
  opened sessionId n data hopened hdata := by
    have hdata : world.store.sessions.find? sessionId = some data := hdata
    rw [hsessions] at hdata
    exact (h.opened sessionId n data hopened hdata).write husers
  changes := changes_append h.changes hnew

theorem Kept.session (h : Kept a l) {id n : Nat} (husers : world.store.users = l.world.store.users)
    (hsessions : world.store.sessions = l.world.store.sessions.insert id data)
    (hrunning : ∀ i p, world.running.find? i = some p → l.world.running.find? i = some p)
    (hcurrent : Current l.world.store.users l.writes data.u n data.sv) :
    Kept a { l with world, openedAt := fun k => if k = id then some n else l.openedAt k } where
  readAt := h.readAt
  running i p hp := by
    show ProcessKept a world.store.users _ _ _
    rw [husers]
    exact h.running i p (hrunning i p hp)
  opened sessionId m found hopened hdata := by
    have hdata : world.store.sessions.find? sessionId = some found := hdata
    have hopened : (if sessionId = id then some n else l.openedAt sessionId) = some m := hopened
    show Current world.store.users _ _ _ _
    rw [husers]
    rw [hsessions, Table.find?_insert] at hdata
    by_cases hid : sessionId = id
    · rw [if_pos hid] at hdata hopened
      cases hdata
      cases hopened
      exact hcurrent
    · rw [if_neg hid] at hdata hopened
      exact h.opened sessionId m found hopened hdata
  changes := h.changes

theorem replaces_of_note {now userId : Nat} {p : AuthProcess}
    (h : p.note now s = some (.write userId false)) : p.replaces a userId = true := by
  unfold AuthProcess.note at h
  split at h <;> try cases h
  · obtain ⟨user, -, hsame⟩ := Option.map_eq_some_iff.mp h
    cases hsame
    simp [AuthProcess.replaces]
  · obtain ⟨s', -, hsame⟩ := Option.map_eq_some_iff.mp h
    cases hsame

theorem goes_of_write {now sequence userId : Nat} {isReset : Bool} {x : Outside}
    {p p' : AuthProcess} (h : p.note now s = some (.write userId isReset))
    (hgoes : (p.step a now sequence x s).2 = .goes p') : ∃ q, p' = .resetConfirm q := by
  unfold AuthProcess.note at h
  split at h <;> try cases h
  · simp only [AuthProcess.step, ChangePhase.step] at hgoes
    split at hgoes <;> cases hgoes
  · simp only [AuthProcess.step, ResetPhase.step] at hgoes
    split at hgoes
    · cases hgoes
    · cases hgoes
      exact ⟨_, rfl⟩

theorem Kept.advance (h : Kept a l) {i : Nat} {x : Outside}
    (he : Undisturbed a l (.advance i x)) : Kept a (l.step a (.advance i x)) := by
  cases hp : l.world.running.find? i with
  | none =>
      have hnote : l.note (.advance i x) = none := by simp [CredentialLog.note, hp]
      have hworld : l.world.step a (.advance i x) = l.world := by simp [AuthWorld.step, hp]
      unfold CredentialLog.step
      rw [hnote, hworld]
      exact h
  | some p =>
      have hnote : l.note (.advance i x) = (p.note l.world.clock l.world.store).map (i, ·) := by
        simp [CredentialLog.note, hp]
      have hkept := h.running i p hp
      have hdid : Did p l.world.store
          (p.step a l.world.clock l.world.sequence x l.world.store).1 l.world.sequence
          (p.note l.world.clock l.world.store) := p.did
      unfold CredentialLog.step
      simp only [AuthWorld.step, hp]
      rw [hnote]
      cases hn : p.note l.world.clock l.world.store with
      | none =>
          rw [hn] at hdid
          cases hdid with
          | still _ _ husers hsessions =>
              refine h.still husers (fun id data hdata => hsessions ▸ hdata) h.readAt
                fun j q hq => ?_
              rcases find?_proceed hq with ⟨-, hold⟩ | ⟨rfl, hnext⟩
              · exact h.running j q hold
              · exact AuthProcess.goes_kept hkept (h.readAt j) (fun hread => by simp [hn] at hread)
                  (fun _ => rfl) hnext
      | some note =>
          rw [hn] at hdid
          cases hdid with
          | still _ hread husers hsessions =>
              obtain rfl : note = .read := by simpa using hread
              refine h.still husers (fun id data hdata => hsessions ▸ hdata) (fun j => ?_)
                fun j q hq => ?_
              · split
                · exact Nat.le_refl _
                · exact h.readAt j
              · rcases find?_proceed hq with ⟨hj, hold⟩ | ⟨rfl, hnext⟩
                · rw [if_neg hj]
                  exact h.running j q hold
                · rw [if_pos rfl]
                  exact AuthProcess.goes_kept hkept (h.readAt j) (fun _ => rfl)
                    (fun hread => absurd hn hread) hnext
          | write userId isReset husers hsessions =>
              have hevent : l.note (.advance i x) = some (i, .write userId isReset) := by
                rw [hnote, hn]
                rfl
              refine h.write husers hsessions (fun j q hq => ?_) fun n hverified other hother => ?_
              · rcases find?_proceed hq with ⟨-, hold⟩ | ⟨rfl, hnext⟩
                · refine ⟨h.running j q hold, he.logins i userId isReset hevent j q hold,
                    fun hreset => ?_⟩
                  cases isReset with
                  | false => cases hreset
                  | true => exact he.changes i userId hevent j q hold
                · obtain ⟨r, rfl⟩ := goes_of_write hn hnext
                  exact ⟨processKept_reset r _, rfl, fun _ => rfl⟩
              · cases isReset with
                | true => cases hverified
                | false =>
                    obtain rfl := Option.some.inj hverified
                    exact hkept.replaces userId (replaces_of_note hn) other hother
          | session userId user rememberMe data hlogin hu hsv husers hsessions =>
              refine h.session husers hsessions (fun j q hq => ?_) ?_
              · rcases find?_proceed hq with ⟨-, hold⟩ | ⟨rfl, hnext⟩
                · exact hold
                · subst hlogin
                  cases hnext
              · rw [hu, hsv]
                exact hkept.loaded userId user rememberMe hlogin

theorem Kept.step (h : Kept a l) {e : AuthEvent} (he : Undisturbed a l e) :
    Kept a (l.step a e) := by
  cases e with
  | advance i x => exact h.advance he
  | start i op =>
      refine h.still ?_ (fun id data hdata => ?_) h.readAt fun j p hp => ?_
      · simp only [AuthWorld.step]
        split <;> rfl
      · simp only [AuthWorld.step] at hdata
        split at hdata <;> exact hdata
      · simp only [AuthWorld.step] at hp
        split at hp
        · exact h.running j p hp
        · rw [Table.find?_insert] at hp
          split at hp
          · cases hp
            exact processKept_enter op _
          · exact h.running j p hp
  | crash i =>
      refine h.still rfl (fun id data hdata => hdata) h.readAt fun j p hp => ?_
      simp only [AuthWorld.step, Table.find?_deleteMany] at hp
      obtain ⟨q, hq, hkeep⟩ := Option.bind_eq_some_iff.mp hp
      split at hkeep
      · cases hkeep
      · cases hkeep
        exact h.running j p hq
  | request sessionId =>
      refine h.still ?_ (fun id data hdata => ?_) h.readAt h.running
      · show (canActivate l.world.clock sessionId l.world.store).2.users = l.world.store.users
        rcases canActivate_store l.world.clock sessionId l.world.store with hs | hs <;> rw [hs]
        rfl
      · have hdata : (canActivate l.world.clock sessionId l.world.store).2.sessions.find? id =
          some data := hdata
        rcases canActivate_store l.world.clock sessionId l.world.store with hs | hs
        · rw [hs] at hdata
          exact hdata
        · rw [hs] at hdata
          exact find?_destroySession hdata
  | destroy sessionId =>
      exact h.still rfl (fun id data hdata => find?_destroySession hdata) h.readAt h.running
  | pass d => exact h.still rfl (fun id data hdata => hdata) h.readAt h.running

/-- In every run whose steps leave logins and changes undisturbed, sessions end with the
passwords they were opened with and no change overwrites a reset. -/
theorem credentialsHold_of_undisturbed (a : Argon2) (clock sequence : Nat) (s : AuthStore)
    (es : List AuthEvent)
    (h : Along (CredentialLog.step a) (Undisturbed a) (.start clock sequence s) es) :
    CredentialsHold (es.foldl (CredentialLog.step a) (.start clock sequence s)) :=
  (h.induction (kept_start clock sequence s) fun _ _ hkept he => hkept.step he).credentialsHold

end Run

/-! ## The races -/

theorem undisturbed_of_quiet {a : Argon2} {l : CredentialLog} {e : AuthEvent}
    (h : ∀ i userId isReset, l.note e ≠ some (i, .write userId isReset)) : Undisturbed a l e where
  logins i userId isReset hnote := absurd hnote (h i userId isReset)
  changes i userId hnote := absurd hnote (h i userId true)

instance (a : Argon2) (l : CredentialLog) (e : AuthEvent) : Decidable (Undisturbed a l e) :=
  match h : l.note e with
  | some (_, .write userId isReset) =>
      decidable_of_iff ((∀ r ∈ l.world.running.rows, r.2.presents a userId = false) ∧
          (isReset = true → ∀ r ∈ l.world.running.rows, r.2.replaces a userId = false))
        ⟨fun hq =>
          { logins := fun i u reset hnote j p hp => by
              cases h.symm.trans hnote
              exact hq.1 (j, p) (Table.find?_eq_some_iff.mp hp)
            changes := fun i u hnote j p hp => by
              cases h.symm.trans hnote
              exact hq.2 rfl (j, p) (Table.find?_eq_some_iff.mp hp) },
        fun hq =>
          ⟨fun r hr => hq.logins _ _ _ h r.1 r.2 (Table.find?_eq_some_iff.mpr hr),
          fun hreset r hr => by
            subst hreset
            exact hq.changes _ _ h r.1 r.2 (Table.find?_eq_some_iff.mpr hr)⟩⟩
  | some (_, .read) => isTrue (undisturbed_of_quiet fun _ _ _ hnote => by simp [h] at hnote)
  | some (_, .session) => isTrue (undisturbed_of_quiet fun _ _ _ hnote => by simp [h] at hnote)
  | none => isTrue (undisturbed_of_quiet fun _ _ _ hnote => by simp [h] at hnote)

namespace Races

def argon2 : Argon2 := ⟨fun _ password => password, fun hash password => some (hash == password)⟩

def ann : User := ⟨"Ann", "+8613800138000", some "first-password", .active, false, 0, 0, 0, none⟩

def flow : FlowSessionData :=
  ⟨.reset, some 1, some "union", none, none, none, 1000⟩

/-- One account with its binding and a reset that it began. -/
def store : AuthStore where
  users := Table.empty.insert 1 ann
  dingtalkBindings := Table.empty.insert 1 ⟨1, "union", true⟩
  activationInvitations := .empty
  sessions := .empty
  flows := Table.empty.insert 1 flow

def start : CredentialLog := .start 0 1 store

def answer : Outside := ⟨false, 7, 1000⟩

def login : AuthOperation := .login "138 0013 8000" "first-password" false

def change : AuthOperation := .changePassword 1 "first-password" "second-password"

def reset : AuthOperation := .resetConfirm 1 ⟨"union", "", "", "third-password"⟩

/-- A login has checked the old password when a change writes the new one. -/
def lateSession : List AuthEvent :=
  [.start 1 login, .advance 1 answer, .advance 1 answer, .start 2 change, .advance 2 answer,
    .advance 2 answer, .advance 2 answer, .advance 1 answer, .advance 1 answer]

/-- The login opens its session after the change. -/
def lateLog : CredentialLog := lateSession.foldl (CredentialLog.step argon2) start

/-- A change has checked the old password when a reset is committed. -/
def lateChange : List AuthEvent :=
  [.start 1 change, .advance 1 answer, .advance 1 answer, .start 2 reset, .advance 2 answer,
    .advance 2 answer, .advance 2 answer, .advance 1 answer]

def overwrittenLog : CredentialLog := lateChange.foldl (CredentialLog.step argon2) start

/-- A login, a change, and a request under the session from before. -/
def inOrder : List AuthEvent :=
  [.start 1 login, .advance 1 answer, .advance 1 answer, .advance 1 answer, .advance 1 answer,
    .start 2 change, .advance 2 answer, .advance 2 answer, .advance 2 answer, .request 4]

end Races

open Races in
/-- A session of the old password is valid after a change; and a change undoes a reset. -/
theorem credentials_race : ¬ CredentialsHold lateLog ∧ ¬ CredentialsHold overwrittenLog := by
  constructor
  · intro h
    have hsince := h.sessions 7 0 ⟨1, 1, false, 1000, 0⟩ (by decide +kernel) (by decide +kernel)
      (by decide +kernel)
    revert hsince
    decide +kernel
  · intro h
    have hreset := h.changes 1 ⟨1, some 0⟩ 0 (by decide +kernel) rfl ⟨1, none⟩ (by decide +kernel)
    cases hreset

open Races in
theorem credentialsHold_in_order :
    Along (CredentialLog.step argon2) (Undisturbed argon2) start inOrder ∧
      CredentialsHold (inOrder.foldl (CredentialLog.step argon2) start) ∧
      (inOrder.foldl (CredentialLog.step argon2) start).writes = [⟨1, some 0⟩] := by
  have h : Along (CredentialLog.step argon2) (Undisturbed argon2) start inOrder := by
    decide +kernel
  exact ⟨h, credentialsHold_of_undisturbed argon2 0 1 store inOrder h, by decide +kernel⟩

end Wbme.Auth

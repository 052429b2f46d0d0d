import Mathlib.Logic.Relation
import Wbme.Auth.Store
import Wbme.Lib.Along
import Wbme.Lib.ExpiringKeys

/-! # Touching, rotating and destroying sessions

Requests of one session run side by side, each a command of the cache at a time. The guard reads
the session, loads the account, gives the session a new identifier when its user has been
elevated, and extends its life. A logout destroys the session of its cookie afterwards.
-/

namespace Wbme.Auth

open Lib

namespace SessionService

/-- Where a request stands: what it does next, and with what it has read. -/
inductive Stage where
  /-- `GET` of the session. -/
  | reading
  /-- The absolute expiry is compared with the clock. -/
  | judging (data : SessionData)
  /-- The account is loaded. -/
  | loading (data : SessionData)
  /-- `GET` of the elevation mark. -/
  | checking (data : SessionData)
  /-- `PTTL` of the session. -/
  | timing (data : SessionData)
  /-- The clock is read for the data of the new session. -/
  | preparing (data : SessionData) (pttl : Nat)
  /-- `SET` of the new session. -/
  | setting (data : SessionData) (pttl : Nat)
  /-- `DEL` of the old session. -/
  | deleting (id : Nat) (data : SessionData)
  /-- The guard has its session. -/
  | guarded (id : Nat) (data : SessionData)
  /-- The clock is read for the time that is left. -/
  | clocking (id : Nat) (data : SessionData) (idleTimeout : Nat)
  /-- `PEXPIRE` of the session. -/
  | expiring (id : Nat) (data : SessionData) (idleTimeout readAt : Nat)
  /-- `DEL` of a session by `destroy`. -/
  | destroying (id : Nat)
  /-- `DEL` of a session past its absolute expiry. -/
  | dropping (id : Nat)
  | finished
deriving DecidableEq

/-- A request with the session of its cookie; `active` says that it extends the life of the
session, `isLogout` that it destroys it. -/
structure SessionRequest where
  cookie : Nat
  active : Bool
  isLogout : Bool
  stage : Stage

inductive Running where
  | request (r : SessionRequest)
  | login (data : SessionData) (ttl : Nat)

/-- The cache with what runs. `rotations` and `destroyed` keep what has happened: which session
was given which identifier, and which sessions `destroy` has removed. -/
structure SessionWorld where
  now : Nat
  sessions : ExpiringKeys Nat SessionData
  elevations : ExpiringKeys Nat Nat
  nextId : Nat
  running : List Running
  rotations : List (Nat × Nat)
  destroyed : List Nat

def SessionWorld.start : SessionWorld := ⟨0, .empty, .empty, 0, [], [], []⟩

/-- What the world outside answers: whether the account of a session is in order, and the time
after which an idle session is over. -/
structure Answer where
  accepted : Bool
  idleTimeout : Nat

/-- The stage behind the guard. -/
def SessionRequest.passed (r : SessionRequest) : Stage :=
  if r.isLogout then .destroying r.cookie else .finished

namespace SessionWorld

variable (w : SessionWorld)

def destroy (id : Nat) : SessionWorld :=
  { w with sessions := w.sessions.del id, destroyed := id :: w.destroyed }

/-- The `SET` of a rotation, under an identifier that nobody has. -/
def rotate (old : Nat) (data : SessionData) (pttl : Nat) : SessionWorld :=
  { w with
    sessions := w.sessions.put w.nextId ⟨data, some (w.now + pttl)⟩
    nextId := w.nextId + 1
    rotations := (old, w.nextId) :: w.rotations }

/-- One step of a request: the cache after it, and the stage behind it. -/
def proceed (r : SessionRequest) (answer : Answer) : SessionWorld × Stage :=
  match r.stage with
  | .reading =>
      match w.sessions.live w.now r.cookie with
      | none => (w, .finished)
      | some session => (w, .judging session.value)
  | .judging data =>
      if data.abs ≤ w.now then (w, .dropping r.cookie) else (w, .loading data)
  | .loading data =>
      if answer.accepted then (w, .checking data) else (w, .destroying r.cookie)
  | .checking data =>
      match w.elevations.live w.now data.u with
      | none => (w, .guarded r.cookie data)
      | some mark =>
          if mark.value < data.iat then (w, .guarded r.cookie data) else (w, .timing data)
  | .timing data =>
      match w.sessions.live w.now r.cookie with
      | none => (w, .guarded r.cookie data)
      | some session =>
          match session.expiresAt with
          | none => (w, .guarded r.cookie data)
          | some expiresAt => (w, .preparing data (expiresAt - w.now))
  | .preparing data pttl => (w, .setting { data with iat := w.now } pttl)
  | .setting data pttl => (w.rotate r.cookie data pttl, .deleting w.nextId data)
  | .deleting id data =>
      ({ w with sessions := w.sessions.del r.cookie }, .guarded id data)
  | .guarded id data =>
      if r.active then (w, .clocking id data answer.idleTimeout) else (w, r.passed)
  | .clocking id data idleTimeout =>
      if data.abs ≤ w.now then (w, .dropping id) else (w, .expiring id data idleTimeout w.now)
  | .expiring id data idleTimeout readAt =>
      ({ w with
        sessions := w.sessions.expire w.now id (min idleTimeout (data.abs - readAt)) }, r.passed)
  | .destroying id => (w.destroy id, .finished)
  | .dropping id => ({ w with sessions := w.sessions.del id }, .finished)
  | .finished => (w, .finished)

/-- The `SET` of a login. -/
def create (data : SessionData) (ttl : Nat) : SessionWorld :=
  { w with
    sessions := w.sessions.put w.nextId ⟨data, some (w.now + ttl)⟩
    nextId := w.nextId + 1 }

end SessionWorld

/-! ## Events -/

inductive SessionEvent where
  | login (userId sessionVersion : Nat) (rememberMe : Bool) (idleTimeout absoluteTimeout : Nat)
  | request (cookie : Nat) (active isLogout : Bool)
  /-- `markElevation`, with the clock it has read. -/
  | elevate (userId markedAt ttl : Nat)
  | advance (i : Nat) (answer : Answer)
  | crash (i : Nat)
  | pass (d : Nat)

def step (w : SessionWorld) : SessionEvent → SessionWorld
  | .login userId sessionVersion rememberMe idleTimeout absoluteTimeout =>
      { w with
        running := w.running ++ [.login
          ⟨userId, sessionVersion, rememberMe, w.now + absoluteTimeout, w.now⟩
          (min idleTimeout absoluteTimeout)] }
  | .request cookie active isLogout =>
      { w with running := w.running ++ [.request ⟨cookie, active, isLogout, .reading⟩] }
  | .elevate userId markedAt ttl =>
      { w with elevations := w.elevations.put userId ⟨markedAt, some (w.now + ttl)⟩ }
  | .advance i answer =>
      match w.running[i]? with
      | none => w
      | some (.login data ttl) => { w.create data ttl with running := w.running.eraseIdx i }
      | some (.request r) =>
          { (w.proceed r answer).1 with
            running := w.running.set i (.request { r with stage := (w.proceed r answer).2 }) }
  | .crash i => { w with running := w.running.eraseIdx i }
  | .pass d => { w with now := w.now + d }

/-! ## What is asked of the sessions -/

variable {r : SessionRequest}

variable {i : Nat} {id : Nat} {data : SessionData}

section Promise

variable (w : SessionWorld)

/-- The session is read, and not past its absolute expiry. -/
def Valid (id : Nat) : Prop :=
  ∃ session, w.sessions.live w.now id = some session ∧ w.now < session.value.abs

def Rotated (a b : Nat) : Prop := (a, b) ∈ w.rotations

/-- The second session is the first, or derived from it by rotations. -/
def Line (a b : Nat) : Prop := Relation.ReflTransGen (Rotated w) a b

/-- What is derived from a destroyed session is not valid, nor is the session. -/
def Gone : Prop := ∀ id ∈ w.destroyed, ∀ b, Line w id b → ¬ Valid w b

def isCreation : SessionEvent → Bool
  | .advance i _ =>
      match w.running[i]? with
      | some (.login _ _) => true
      | _ => false
  | _ => false

/-- A session that a touch or a rotation has written ends by its absolute expiry. -/
def WithinAbs (e : SessionEvent) : Prop :=
  isCreation w e = false → ∀ id session, (step w e).sessions id = some session →
    w.sessions id ≠ some session → ∀ t, session.expiresAt = some t → t ≤ session.value.abs

/-- A rotation has read what is left of the old session, and has not written the new one. -/
def Stage.isRotating : Stage → Bool
  | .preparing _ _ => true
  | .setting _ _ => true
  | _ => false

/-- The session is the last of its line: what was derived from it is not valid any more, and no
rotation in the line is under way. -/
structure LastOfLine (id : Nat) : Prop where
  derived : ∀ b, Relation.TransGen (Rotated w) id b → ¬ Valid w b
  rotating : ∀ r, .request r ∈ w.running → r.stage.isRotating = true → ¬ Line w id r.cookie

/-- When a session is destroyed it is the last of its line. What a rotation has read of the life
of the old session does not reach past the absolute expiry when it is written, and a touch is
written at the time at which it has read the clock, or early enough for the idle timeout. -/
def CarefulRequest (r : SessionRequest) : Prop :=
  match r.stage with
  | .destroying id => LastOfLine w id
  | .setting data pttl => w.now + pttl ≤ data.abs
  | .expiring _ data idleTimeout readAt => w.now = readAt ∨ w.now + idleTimeout ≤ data.abs
  | _ => True

def Careful : SessionEvent → Prop
  | .advance i _ =>
      match w.running[i]? with
      | some (.request r) => CarefulRequest w r
      | _ => True
  | _ => True

theorem careful_request {answer : Answer} (h : Careful w (.advance i answer))
    (hrequest : w.running[i]? = some (.request r)) : CarefulRequest w r := by
  simp only [Careful, hrequest] at h
  exact h

end Promise

/-! ## Nothing comes back -/

/-- Behind some events: identifiers that were given keep the data of their sessions, and no
session is alive again. -/
structure Later (w w' : SessionWorld) : Prop where
  ids : w.nextId ≤ w'.nextId
  clock : w.now ≤ w'.now
  sessions : ∀ id < w.nextId, ∀ s', w'.sessions id = some s' →
    ∃ s, w.sessions id = some s ∧ s.value = s'.value
  live : ∀ id < w.nextId, ∀ s', w'.sessions.live w'.now id = some s' →
    ∃ s, w.sessions.live w.now id = some s ∧ s.value = s'.value

section Later

variable {w w' : SessionWorld}

theorem Later.not_valid (h : Later w w') (hid : id < w.nextId) (hnot : ¬ Valid w id) :
    ¬ Valid w' id := by
  intro hvalid
  obtain ⟨s', hs', habs⟩ := hvalid
  obtain ⟨s, hs, hsame⟩ := h.live id hid s' hs'
  apply hnot
  refine ⟨s, hs, ?_⟩
  rw [hsame]
  exact Nat.lt_of_le_of_lt h.clock habs

theorem later_of_sub (hids : w'.nextId = w.nextId) (hclock : w.now ≤ w'.now)
    (hsessions : ∀ id s, w'.sessions id = some s → w.sessions id = some s) : Later w w' where
  ids := Nat.le_of_eq hids.symm
  clock := hclock
  sessions id _ s' hs' := ⟨s', hsessions id s' hs', rfl⟩
  live id _ s' hs' := by
    rw [ExpiringKeys.live_eq_some] at hs'
    refine ⟨s', ExpiringKeys.live_eq_some.mpr ⟨hsessions id s' hs'.1, ?_⟩, rfl⟩
    intro t ht
    exact Nat.lt_of_le_of_lt hclock (hs'.2 t ht)

theorem later_of_put {session : CacheEntry SessionData} (hids : w'.nextId = w.nextId + 1)
    (hclock : w'.now = w.now) (hsessions : w'.sessions = w.sessions.put w.nextId session) :
    Later w w' where
  ids := by omega
  clock := Nat.le_of_eq hclock.symm
  sessions id hid s' hs' := by
    rw [hsessions, ExpiringKeys.put_ne _ _ (Nat.ne_of_lt hid)] at hs'
    exact ⟨s', hs', rfl⟩
  live id hid s' hs' := by
    rw [ExpiringKeys.live_eq_some, hsessions, ExpiringKeys.put_ne _ _ (Nat.ne_of_lt hid),
      hclock] at hs'
    exact ⟨s', ExpiringKeys.live_eq_some.mpr hs', rfl⟩

theorem later_of_expire {id ttl : Nat} (hids : w'.nextId = w.nextId) (hclock : w'.now = w.now)
    (hsessions : w'.sessions = w.sessions.expire w.now id ttl) : Later w w' where
  ids := Nat.le_of_eq hids.symm
  clock := Nat.le_of_eq hclock.symm
  sessions j _ s' hs' := by
    rw [hsessions] at hs'
    rcases ExpiringKeys.of_expire hs' with hsame | ⟨hj, -, old, hold, hvalue⟩
    · exact ⟨s', hsame, rfl⟩
    · rw [hj]
      exact ⟨old, (ExpiringKeys.live_eq_some.mp hold).1, hvalue⟩
  live j _ s' hs' := by
    rw [ExpiringKeys.live_eq_some, hsessions, hclock] at hs'
    rcases ExpiringKeys.of_expire hs'.1 with hsame | ⟨hj, -, old, hold, hvalue⟩
    · exact ⟨s', ExpiringKeys.live_eq_some.mpr ⟨hsame, hs'.2⟩, rfl⟩
    · rw [hj]
      exact ⟨old, hold, hvalue⟩

theorem later_proceed (w : SessionWorld) (r : SessionRequest) (answer : Answer) :
    Later w (w.proceed r answer).1 := by
  have hsame : Later w w := later_of_sub rfl (Nat.le_refl _) fun _ _ h => h
  have hdel : ∀ id, Later w { w with sessions := w.sessions.del id } := fun id =>
    later_of_sub rfl (Nat.le_refl _) fun _ _ h => ExpiringKeys.of_del h
  unfold SessionWorld.proceed
  cases r.stage with
  | reading => dsimp only; split <;> exact hsame
  | judging data => dsimp only; split <;> exact hsame
  | loading data => dsimp only; split <;> exact hsame
  | checking data =>
      dsimp only
      split
      · exact hsame
      · split <;> exact hsame
  | timing data =>
      dsimp only
      split
      · exact hsame
      · split <;> exact hsame
  | preparing data pttl => exact hsame
  | setting data pttl => exact later_of_put rfl rfl rfl
  | deleting id data => exact hdel r.cookie
  | guarded id data => dsimp only; split <;> exact hsame
  | clocking id data idleTimeout => dsimp only; split <;> exact hsame
  | expiring id data idleTimeout readAt => exact later_of_expire rfl rfl rfl
  | destroying id => exact later_of_sub rfl (Nat.le_refl _) fun _ _ h => ExpiringKeys.of_del h
  | dropping id => exact hdel id
  | finished => exact hsame

theorem later_step (w : SessionWorld) (e : SessionEvent) : Later w (step w e) := by
  have hsame : ∀ w', w'.nextId = w.nextId → w.now ≤ w'.now → w'.sessions = w.sessions →
      Later w w' := by
    intro w' hids hclock hsessions
    apply later_of_sub hids hclock
    intro id s hs
    rw [← hsessions]
    exact hs
  cases e with
  | login userId sessionVersion rememberMe idleTimeout absoluteTimeout =>
      exact hsame _ rfl (Nat.le_refl _) rfl
  | request cookie active isLogout => exact hsame _ rfl (Nat.le_refl _) rfl
  | elevate userId markedAt ttl => exact hsame _ rfl (Nat.le_refl _) rfl
  | crash i => exact hsame _ rfl (Nat.le_refl _) rfl
  | pass d => exact hsame _ rfl (Nat.le_add_right _ _) rfl
  | advance i answer =>
      unfold step
      dsimp only
      split
      · exact hsame _ rfl (Nat.le_refl _) rfl
      · exact later_of_put rfl rfl rfl
      · rename_i r _
        have h := later_proceed w r answer
        exact ⟨h.ids, h.clock, h.sessions, h.live⟩

end Later

/-! ## What a request holds -/

def SessionRequest.session (r : SessionRequest) : Option (Nat × SessionData) :=
  match r.stage with
  | .judging data => some (r.cookie, data)
  | .loading data => some (r.cookie, data)
  | .checking data => some (r.cookie, data)
  | .timing data => some (r.cookie, data)
  | .preparing data _ => some (r.cookie, data)
  | .setting data _ => some (r.cookie, data)
  | .deleting id data => some (id, data)
  | .guarded id data => some (id, data)
  | .clocking id data _ => some (id, data)
  | .expiring id data _ _ => some (id, data)
  | _ => none

/-- The identifiers of a request were given, and its data says when its session ends. -/
structure Holds (w : SessionWorld) (r : SessionRequest) : Prop where
  cookie : r.stage ≠ .reading → r.stage ≠ .finished → r.cookie < w.nextId
  session : ∀ id data, r.session = some (id, data) →
    id < w.nextId ∧ ∀ s, w.sessions id = some s → s.value.abs = data.abs
  target : ∀ id, r.stage = .destroying id → id = r.cookie
  clock : ∀ id data idleTimeout readAt, r.stage = .expiring id data idleTimeout readAt →
    readAt < data.abs

section Holds

variable {w w' : SessionWorld} {r : SessionRequest}

theorem Holds.later (h : Holds w r) (hlater : Later w w') : Holds w' r where
  cookie hreading hfinished := Nat.lt_of_lt_of_le (h.cookie hreading hfinished) hlater.ids
  session id data hsession := by
    obtain ⟨hid, habs⟩ := h.session id data hsession
    refine ⟨Nat.lt_of_lt_of_le hid hlater.ids, ?_⟩
    intro s' hs'
    obtain ⟨s, hs, hsame⟩ := hlater.sessions id hid s' hs'
    rw [← hsame]
    exact habs s hs
  target := h.target
  clock := h.clock

variable {cookie : Nat} {active isLogout : Bool} {stage : Stage}

theorem holds_idle (hcookie : stage ≠ .finished → cookie < w.nextId)
    (hnone : (SessionRequest.mk cookie active isLogout stage).session = none)
    (htarget : ∀ id, stage = .destroying id → id = cookie) :
    Holds w ⟨cookie, active, isLogout, stage⟩ where
  cookie _ hfinished := hcookie hfinished
  session id data hsession := by
    rw [hnone] at hsession
    cases hsession
  target := htarget
  clock id data idleTimeout readAt hstage := by
    have hstage : stage = .expiring id data idleTimeout readAt := hstage
    subst hstage
    cases hnone

theorem holds_session
    (hsession : (SessionRequest.mk cookie active isLogout stage).session = some (id, data))
    (hcookie : cookie < w.nextId) (hid : id < w.nextId)
    (habs : ∀ s, w.sessions id = some s → s.value.abs = data.abs)
    (hclock : ∀ id data idleTimeout readAt, stage = .expiring id data idleTimeout readAt →
      readAt < data.abs) : Holds w ⟨cookie, active, isLogout, stage⟩ where
  cookie _ _ := hcookie
  session j other hother := by
    rw [hsession] at hother
    cases hother
    exact ⟨hid, habs⟩
  target j hstage := by
    have hstage : stage = .destroying j := hstage
    subst hstage
    cases hsession
  clock := hclock

theorem holds_finished : Holds w ⟨cookie, active, isLogout, .finished⟩ :=
  holds_idle (fun hne => absurd rfl hne) rfl fun _ hstage => by cases hstage

theorem holds_passed (hcookie : cookie < w.nextId) :
    Holds w ⟨cookie, active, isLogout,
      (SessionRequest.mk cookie active isLogout stage).passed⟩ := by
  unfold SessionRequest.passed
  cases isLogout with
  | true => exact holds_idle (fun _ => hcookie) rfl fun id hstage => by cases hstage; rfl
  | false => exact holds_finished

/-- A step leaves a request with the session it had, the one it has read, or the one it has
written. -/
theorem holds_proceed (h : Holds w r) (hids : ∀ id s, w.sessions id = some s → id < w.nextId)
    (answer : Answer) :
    Holds (w.proceed r answer).1 { r with stage := (w.proceed r answer).2 } := by
  have hlater := later_proceed w r answer
  obtain ⟨cookie, active, isLogout, stage⟩ := r
  have hkeep : ∀ {next : Stage} {id : Nat} {data : SessionData},
      (⟨cookie, active, isLogout, stage⟩ : SessionRequest).session = some (id, data) →
      (⟨cookie, active, isLogout, next⟩ : SessionRequest).session = some (id, data) →
      (∀ id data idleTimeout readAt, next = .expiring id data idleTimeout readAt →
        readAt < data.abs) → stage ≠ .reading → stage ≠ .finished →
      Holds w ⟨cookie, active, isLogout, next⟩ := by
    intro next id data hsession hnext hclock hreading hfinished
    obtain ⟨hid, habs⟩ := h.session id data hsession
    exact holds_session hnext (h.cookie hreading hfinished) hid habs hclock
  cases stage with
  | reading =>
      unfold SessionWorld.proceed
      dsimp only
      split
      · exact holds_finished
      · rename_i session hlive
        have hfound : w.sessions cookie = some session := (ExpiringKeys.live_eq_some.mp hlive).1
        refine holds_session rfl (hids _ _ hfound) (hids _ _ hfound) ?_ ?_
        · intro s hs
          rw [hfound] at hs
          cases hs
          rfl
        · intro id data idleTimeout readAt hstage
          cases hstage
  | judging data =>
      unfold SessionWorld.proceed
      dsimp only
      split
      · apply holds_idle
        · intro _
          exact h.cookie (by simp) (by simp)
        · rfl
        · intro id hstage
          cases hstage
      · exact hkeep rfl rfl (by simp) (by simp) (by simp)
  | loading data =>
      unfold SessionWorld.proceed
      dsimp only
      split
      · exact hkeep rfl rfl (by simp) (by simp) (by simp)
      · apply holds_idle
        · intro _
          exact h.cookie (by simp) (by simp)
        · rfl
        · intro id hstage
          cases hstage
          rfl
  | checking data =>
      unfold SessionWorld.proceed
      dsimp only
      split
      · exact hkeep rfl rfl (by simp) (by simp) (by simp)
      · split
        · exact hkeep rfl rfl (by simp) (by simp) (by simp)
        · exact hkeep rfl rfl (by simp) (by simp) (by simp)
  | timing data =>
      unfold SessionWorld.proceed
      dsimp only
      split
      · exact hkeep rfl rfl (by simp) (by simp) (by simp)
      · split
        · exact hkeep rfl rfl (by simp) (by simp) (by simp)
        · exact hkeep rfl rfl (by simp) (by simp) (by simp)
  | preparing data pttl =>
      obtain ⟨hid, habs⟩ := h.session cookie data rfl
      refine holds_session rfl (h.cookie (by simp) (by simp)) hid habs ?_
      intro j other idle readAt hstage
      cases hstage
  | setting data pttl =>
      refine holds_session rfl ?_ ?_ ?_ ?_
      · exact Nat.lt_succ_of_lt (h.cookie (by simp) (by simp))
      · exact Nat.lt_succ_self _
      · intro s hs
        have hs : w.sessions.put w.nextId ⟨data, some (w.now + pttl)⟩ w.nextId = some s := hs
        rw [ExpiringKeys.put_self] at hs
        cases hs
        rfl
      · intro j other idle readAt hstage
        cases hstage
  | deleting id data =>
      obtain ⟨hid, habs⟩ := (h.later hlater).session id data rfl
      refine holds_session rfl (h.cookie (by simp) (by simp)) hid habs ?_
      intro j other idle readAt hstage
      cases hstage
  | guarded id data =>
      unfold SessionWorld.proceed
      dsimp only
      split
      · exact hkeep rfl rfl (by simp) (by simp) (by simp)
      · exact holds_passed (h.cookie (by simp) (by simp))
  | clocking id data idleTimeout =>
      unfold SessionWorld.proceed
      dsimp only
      split
      · apply holds_idle
        · intro _
          exact h.cookie (by simp) (by simp)
        · rfl
        · intro j hstage
          cases hstage
      · rename_i hleft
        refine hkeep rfl rfl ?_ (by simp) (by simp)
        intro j other idle readAt hstage
        cases hstage
        exact Nat.not_le.mp hleft
  | expiring id data idleTimeout readAt =>
      exact holds_passed (Nat.lt_of_lt_of_le (h.cookie (by simp) (by simp)) hlater.ids)
  | destroying id => exact holds_finished
  | dropping id => exact holds_finished
  | finished => exact holds_finished

end Holds

/-! ## The invariant -/

/-- What every reachable state has: identifiers are given once, requests hold sessions that were
given, and what is derived from a destroyed session is over, also where a rotation has still to
write it. -/
structure Sound (w : SessionWorld) : Prop where
  ids : ∀ id s, w.sessions id = some s → id < w.nextId
  rotations : ∀ a b, Rotated w a b → a < w.nextId ∧ b < w.nextId
  destroyed : ∀ id ∈ w.destroyed, id < w.nextId
  requests : ∀ r, .request r ∈ w.running → Holds w r
  gone : Gone w
  rotating : ∀ id ∈ w.destroyed, ∀ r, .request r ∈ w.running → r.stage.isRotating = true →
    Line w id r.cookie → ∀ c data, r.session = some (c, data) → data.abs ≤ w.now

theorem sound_start : Sound .start where
  ids _ _ h := by cases h
  rotations _ _ h := by cases h
  destroyed _ h := by cases h
  requests _ h := by cases h
  gone _ h := by cases h
  rotating _ h := by cases h

section Sound

variable {w w' : SessionWorld}

theorem Sound.line_lt (h : Sound w) {a b : Nat} (ha : a < w.nextId) (hline : Line w a b) :
    b < w.nextId := by
  induction hline with
  | refl => exact ha
  | tail _ hstep _ => exact (h.rotations _ _ hstep).2

theorem Sound.quiet (h : Sound w) (hlater : Later w w') (hrotations : w'.rotations = w.rotations)
    (hdestroyed : w'.destroyed = w.destroyed)
    (hids : ∀ id s, w'.sessions id = some s → id < w'.nextId)
    (hrequests : ∀ r, .request r ∈ w'.running → .request r ∈ w.running ∨
      Holds w' r ∧ (r.stage.isRotating = true → ∀ id ∈ w.destroyed, Line w id r.cookie →
        ∀ c data, r.session = some (c, data) → data.abs ≤ w'.now)) : Sound w' := by
  have hline : ∀ a b, Line w' a b ↔ Line w a b := by
    intro a b
    unfold Line
    rw [show Rotated w' = Rotated w from funext fun x => funext fun y => by
      unfold Rotated
      rw [hrotations]]
  constructor
  · exact hids
  · intro a b hab
    unfold Rotated at hab
    rw [hrotations] at hab
    obtain ⟨ha, hb⟩ := h.rotations a b hab
    exact ⟨Nat.lt_of_lt_of_le ha hlater.ids, Nat.lt_of_lt_of_le hb hlater.ids⟩
  · intro id hid
    rw [hdestroyed] at hid
    exact Nat.lt_of_lt_of_le (h.destroyed id hid) hlater.ids
  · intro r hr
    rcases hrequests r hr with hold | hnew
    · exact (h.requests r hold).later hlater
    · exact hnew.1
  · intro id hid b hb
    rw [hdestroyed] at hid
    rw [hline] at hb
    exact hlater.not_valid (h.line_lt (h.destroyed id hid) hb) (h.gone id hid b hb)
  · intro id hid r hr hrotating hb c data hsession
    rw [hdestroyed] at hid
    rw [hline] at hb
    rcases hrequests r hr with hold | hnew
    · exact Nat.le_trans (h.rotating id hid r hold hrotating hb c data hsession) hlater.clock
    · exact hnew.2 hrotating id hid hb c data hsession

theorem Sound.line_of_rotate (h : Sound w) {c : Nat} (hc : c < w.nextId)
    (hrotations : w'.rotations = (c, w.nextId) :: w.rotations) {a b : Nat} (hline : Line w' a b) :
    Line w a b ∨ b = w.nextId ∧ Line w a c := by
  induction hline with
  | refl => exact .inl .refl
  | tail _ hstep ih =>
      unfold Rotated at hstep
      rw [hrotations, List.mem_cons] at hstep
      rcases ih with ih | ⟨hnew, -⟩
      · rcases hstep with hstep | hstep
        · cases hstep
          exact .inr ⟨rfl, ih⟩
        · exact .inl (.tail ih hstep)
      · subst hnew
        rcases hstep with hstep | hstep
        · cases hstep
          exact absurd hc (Nat.lt_irrefl _)
        · exact absurd (h.rotations _ _ hstep).1 (Nat.lt_irrefl _)

variable {running : List Running}

theorem mem_set_request {r r' : SessionRequest} (h : .request r ∈ running.set i (.request r')) :
    .request r ∈ running ∨ r = r' := by
  rcases List.mem_or_eq_of_mem_set h with hmem | heq
  · exact .inl hmem
  · cases heq
    exact .inr rfl

theorem ids_proceed (h : ∀ id s, w.sessions id = some s → id < w.nextId) (r : SessionRequest)
    (answer : Answer) (id : Nat) (s : CacheEntry SessionData)
    (hs : (w.proceed r answer).1.sessions id = some s) : id < (w.proceed r answer).1.nextId := by
  have hlater := later_proceed w r answer
  by_cases hid : id < w.nextId
  · exact Nat.lt_of_lt_of_le hid hlater.ids
  · have hnone : w.sessions id = none := by
      cases hfound : w.sessions id with
      | none => rfl
      | some s => exact absurd (h id s hfound) hid
    revert hs
    unfold SessionWorld.proceed
    have hold : w.sessions id = some s → id < w.nextId := h id s
    have hdel : ∀ j, w.sessions.del j id = some s → id < w.nextId :=
      fun j hs => hold (ExpiringKeys.of_del hs)
    cases r.stage with
    | reading => dsimp only; split <;> exact hold
    | judging data => dsimp only; split <;> exact hold
    | loading data => dsimp only; split <;> exact hold
    | checking data =>
        dsimp only
        split
        · exact hold
        · split <;> exact hold
    | timing data =>
        dsimp only
        split
        · exact hold
        · split <;> exact hold
    | preparing data pttl => exact hold
    | setting data pttl =>
        intro hs
        show id < w.nextId + 1
        have hs : w.sessions.put w.nextId ⟨data, some (w.now + pttl)⟩ id = some s := hs
        by_cases hnew : id = w.nextId
        · omega
        · rw [ExpiringKeys.put_ne _ _ hnew] at hs
          exact Nat.lt_succ_of_lt (hold hs)
    | deleting j data => exact hdel r.cookie
    | guarded j data => dsimp only; split <;> exact hold
    | clocking j data idleTimeout => dsimp only; split <;> exact hold
    | expiring j data idleTimeout readAt =>
        intro hs
        rcases ExpiringKeys.of_expire hs with hs | ⟨hj, -, old, hlive, -⟩
        · exact hold hs
        · subst hj
          exact h _ _ (ExpiringKeys.live_eq_some.mp hlive).1
    | destroying j => exact hdel j
    | dropping j => exact hdel j
    | finished => exact hold

theorem quiet_proceed (w : SessionWorld) {r : SessionRequest}
    (hset : ∀ data pttl, r.stage ≠ .setting data pttl) (hdestroy : ∀ id, r.stage ≠ .destroying id)
    (answer : Answer) : (w.proceed r answer).1.rotations = w.rotations ∧
      (w.proceed r answer).1.destroyed = w.destroyed ∧
      (w.proceed r answer).1.now = w.now := by
  unfold SessionWorld.proceed
  cases hstage : r.stage with
  | reading => dsimp only; split <;> exact ⟨rfl, rfl, rfl⟩
  | judging data => dsimp only; split <;> exact ⟨rfl, rfl, rfl⟩
  | loading data => dsimp only; split <;> exact ⟨rfl, rfl, rfl⟩
  | checking data =>
      dsimp only
      split
      · exact ⟨rfl, rfl, rfl⟩
      · split <;> exact ⟨rfl, rfl, rfl⟩
  | timing data =>
      dsimp only
      split
      · exact ⟨rfl, rfl, rfl⟩
      · split <;> exact ⟨rfl, rfl, rfl⟩
  | preparing data pttl => exact ⟨rfl, rfl, rfl⟩
  | setting data pttl => exact absurd hstage (hset data pttl)
  | deleting id data => exact ⟨rfl, rfl, rfl⟩
  | guarded id data => dsimp only; split <;> exact ⟨rfl, rfl, rfl⟩
  | clocking id data idleTimeout => dsimp only; split <;> exact ⟨rfl, rfl, rfl⟩
  | expiring id data idleTimeout readAt => exact ⟨rfl, rfl, rfl⟩
  | destroying id => exact absurd hstage (hdestroy id)
  | dropping id => exact ⟨rfl, rfl, rfl⟩
  | finished => exact ⟨rfl, rfl, rfl⟩

/-- A request that rotates behind a step has rotated before it, or has just read that its
session is alive. -/
theorem rotating_proceed (w : SessionWorld) (r : SessionRequest) (answer : Answer)
    (h : (w.proceed r answer).2.isRotating = true) {c : Nat} {data : SessionData}
    (hsession : ({ r with stage := (w.proceed r answer).2 } : SessionRequest).session =
      some (c, data)) :
    ∃ before, r.session = some (r.cookie, before) ∧ before.abs = data.abs ∧
      (r.stage.isRotating = true ∨ ∃ s, w.sessions.live w.now r.cookie = some s) := by
  obtain ⟨cookie, active, isLogout, stage⟩ := r
  unfold SessionWorld.proceed at h hsession
  cases stage with
  | timing before =>
      dsimp only at h hsession
      split at h
      · cases h
      · rename_i s hlive
        split at h
        · cases h
        · rename_i t ht
          rw [hlive] at hsession
          simp only [ht] at hsession
          cases hsession
          exact ⟨data, rfl, rfl, .inr ⟨s, hlive⟩⟩
  | preparing before pttl =>
      cases hsession
      exact ⟨before, rfl, rfl, .inl rfl⟩
  | reading => dsimp only at h; split at h <;> cases h
  | judging before => dsimp only at h; split at h <;> cases h
  | loading before => dsimp only at h; split at h <;> cases h
  | checking before =>
      dsimp only at h
      split at h
      · cases h
      · split at h <;> cases h
  | setting before pttl => cases h
  | deleting id before => cases h
  | guarded id before =>
      dsimp only [SessionRequest.passed] at h
      split at h
      · cases h
      · split at h <;> cases h
  | clocking id before idleTimeout => dsimp only at h; split at h <;> cases h
  | expiring id before idleTimeout readAt =>
      dsimp only [SessionRequest.passed] at h
      split at h <;> cases h
  | destroying id => cases h
  | dropping id => cases h
  | finished => cases h

theorem Sound.rotate (h : Sound w) {pttl : Nat} (hi : w.running[i]? = some (.request r))
    (hstage : r.stage = .setting data pttl)
    (hrunning : ∀ q, .request q ∈ running → .request q ∈ w.running ∨
      q = { r with stage := .deleting w.nextId data })
    (hholds : Holds (w.rotate r.cookie data pttl) { r with stage := .deleting w.nextId data }) :
    Sound { w.rotate r.cookie data pttl with running := running } := by
  have hmem : .request r ∈ w.running := List.mem_of_getElem? hi
  have hcookie : r.cookie < w.nextId :=
    (h.requests r hmem).cookie (by rw [hstage]; simp) (by rw [hstage]; simp)
  have hlater : Later w { w.rotate r.cookie data pttl with running := running } :=
    later_of_put rfl rfl rfl
  constructor
  · intro id s hs
    show id < w.nextId + 1
    have hs : w.sessions.put w.nextId ⟨data, some (w.now + pttl)⟩ id = some s := hs
    by_cases hnew : id = w.nextId
    · omega
    · rw [ExpiringKeys.put_ne _ _ hnew] at hs
      exact Nat.lt_succ_of_lt (h.ids id s hs)
  · intro a b hab
    show a < w.nextId + 1 ∧ b < w.nextId + 1
    rcases List.mem_cons.mp hab with hab | hab
    · cases hab
      exact ⟨Nat.lt_succ_of_lt hcookie, Nat.lt_succ_self _⟩
    · obtain ⟨ha, hb⟩ := h.rotations a b hab
      exact ⟨Nat.lt_succ_of_lt ha, Nat.lt_succ_of_lt hb⟩
  · intro id hid
    exact Nat.lt_succ_of_lt (h.destroyed id hid)
  · intro q hq
    rcases hrunning q hq with hold | hnew
    · exact (h.requests q hold).later hlater
    · rw [hnew]
      exact ⟨hholds.cookie, hholds.session, hholds.target, hholds.clock⟩
  · intro id hid b hb
    rcases h.line_of_rotate hcookie rfl hb with hb | ⟨hb, hline⟩
    · exact hlater.not_valid (h.line_lt (h.destroyed id hid) hb) (h.gone id hid b hb)
    · intro hvalid
      obtain ⟨s, hs, habs⟩ := hvalid
      have hfound := (ExpiringKeys.live_eq_some.mp hs).1
      have hfound : w.sessions.put w.nextId ⟨data, some (w.now + pttl)⟩ b = some s := hfound
      rw [hb, ExpiringKeys.put_self] at hfound
      cases hfound
      have hover := h.rotating id hid r hmem (by rw [hstage]; rfl) hline r.cookie data
        (by unfold SessionRequest.session; rw [hstage])
      exact absurd habs (Nat.not_lt.mpr hover)
  · intro id hid q hq hrotating hline c other hsession
    rcases hrunning q hq with hold | hnew
    · rcases h.line_of_rotate hcookie rfl hline with hline | ⟨hb, -⟩
      · exact h.rotating id hid q hold hrotating hline c other hsession
      · have hlt : q.cookie < w.nextId := by
          apply (h.requests q hold).cookie
          · intro heq
            rw [heq] at hrotating
            cases hrotating
          · intro heq
            rw [heq] at hrotating
            cases hrotating
        rw [hb] at hlt
        exact absurd hlt (Nat.lt_irrefl _)
    · rw [hnew] at hrotating
      cases hrotating

theorem Sound.destroy (h : Sound w) (hid : id < w.nextId) (hlast : LastOfLine w id)
    (hrunning : ∀ q, .request q ∈ running → .request q ∈ w.running ∨
      q.stage = .finished) : Sound { w.destroy id with running := running } := by
  have hlater : Later w { w.destroy id with running := running } :=
    later_of_sub rfl (Nat.le_refl _) fun _ _ hs => ExpiringKeys.of_del hs
  constructor
  · intro j s hs
    exact h.ids j s (ExpiringKeys.of_del hs)
  · exact h.rotations
  · intro j hj
    rcases List.mem_cons.mp hj with hj | hj
    · rw [hj]
      exact hid
    · exact h.destroyed j hj
  · intro q hq
    rcases hrunning q hq with hold | hfinished
    · exact (h.requests q hold).later hlater
    · constructor
      · intro _ hne
        exact absurd hfinished hne
      · intro c data hsession
        unfold SessionRequest.session at hsession
        rw [hfinished] at hsession
        cases hsession
      · intro j hstage
        rw [hfinished] at hstage
        cases hstage
      · intro c data idleTimeout readAt hstage
        rw [hfinished] at hstage
        cases hstage
  · intro j hj b hb
    rcases List.mem_cons.mp hj with hj | hj
    · subst hj
      rcases Relation.reflTransGen_iff_eq_or_transGen.mp hb with heq | htrans
      · subst heq
        intro hvalid
        obtain ⟨s, hs, -⟩ := hvalid
        have hfound := (ExpiringKeys.live_eq_some.mp hs).1
        have hfound : w.sessions.del b b = some s := hfound
        rw [ExpiringKeys.del_self] at hfound
        cases hfound
      · exact hlater.not_valid (h.line_lt hid hb) (hlast.derived b htrans)
    · exact hlater.not_valid (h.line_lt (h.destroyed j hj) hb) (h.gone j hj b hb)
  · intro j hj q hq hrotating hline c data hsession
    rcases hrunning q hq with hold | hfinished
    · rcases List.mem_cons.mp hj with hj | hj
      · rw [hj] at hline
        exact absurd hline (hlast.rotating q hold hrotating)
      · exact h.rotating j hj q hold hrotating hline c data hsession
    · rw [hfinished] at hrotating
      cases hrotating

theorem Sound.proceed (h : Sound w) (hrequest : w.running[i]? = some (.request r))
    (hcare : CarefulRequest w r) (answer : Answer) : Sound { (w.proceed r answer).1 with
      running := w.running.set i (.request { r with stage := (w.proceed r answer).2 }) } := by
  have hmem : .request r ∈ w.running := List.mem_of_getElem? hrequest
  have hholds := holds_proceed (h.requests r hmem) h.ids answer
  by_cases hset : ∃ data pttl, r.stage = .setting data pttl
  · obtain ⟨data, pttl, hstage⟩ := hset
    have hproceed : w.proceed r answer =
        (w.rotate r.cookie data pttl, .deleting w.nextId data) := by
      unfold SessionWorld.proceed
      rw [hstage]
    rw [hproceed] at hholds ⊢
    exact h.rotate hrequest hstage (fun q hq => mem_set_request hq) hholds
  · by_cases hdestroy : ∃ id, r.stage = .destroying id
    · obtain ⟨id, hstage⟩ := hdestroy
      have hproceed : w.proceed r answer = (w.destroy id, .finished) := by
        unfold SessionWorld.proceed
        rw [hstage]
      rw [hproceed]
      unfold CarefulRequest at hcare
      rw [hstage] at hcare
      have hid : id < w.nextId := by
        rw [(h.requests r hmem).target id hstage]
        exact (h.requests r hmem).cookie (by rw [hstage]; simp) (by rw [hstage]; simp)
      refine h.destroy hid hcare ?_
      intro q hq
      rcases mem_set_request hq with hq | hq
      · exact .inl hq
      · rw [hq]
        exact .inr rfl
    · obtain ⟨hrotations, hdestroyed, hnow⟩ := quiet_proceed w
        (fun data pttl hstage => hset ⟨data, pttl, hstage⟩)
        (fun id hstage => hdestroy ⟨id, hstage⟩) answer
      have hlater := later_proceed w r answer
      refine h.quiet ⟨hlater.ids, hlater.clock, hlater.sessions, hlater.live⟩ hrotations hdestroyed
        (ids_proceed h.ids r answer) ?_
      intro q hq
      rcases mem_set_request hq with hq | hq
      · exact .inl hq
      · subst hq
        refine .inr ⟨⟨hholds.cookie, hholds.session, hholds.target, hholds.clock⟩, ?_⟩
        intro hrotating id hid hline c data hsession
        show data.abs ≤ (w.proceed r answer).1.now
        rw [hnow]
        obtain ⟨before, hbefore, habs, hsince⟩ :=
          rotating_proceed w r answer hrotating hsession
        rw [← habs]
        rcases hsince with hsince | ⟨s, hlive⟩
        · exact h.rotating id hid r hmem hsince hline r.cookie before hbefore
        · have hfound := (ExpiringKeys.live_eq_some.mp hlive).1
          rw [← ((h.requests r hmem).session r.cookie before hbefore).2 s hfound]
          have hnot := h.gone id hid r.cookie hline
          by_contra hlt
          exact hnot ⟨s, hlive, Nat.not_le.mp hlt⟩

theorem Sound.step (h : Sound w) {e : SessionEvent} (hcareful : Careful w e) :
    Sound (step w e) := by
  have hlater := later_step w e
  cases e with
  | login userId sessionVersion rememberMe idleTimeout absoluteTimeout =>
      refine h.quiet hlater rfl rfl h.ids ?_
      intro r hr
      rcases List.mem_append.mp hr with hr | hr
      · exact .inl hr
      · cases List.mem_singleton.mp hr
  | request cookie active isLogout =>
      refine h.quiet hlater rfl rfl h.ids ?_
      intro r hr
      rcases List.mem_append.mp hr with hr | hr
      · exact .inl hr
      · cases List.mem_singleton.mp hr
        refine .inr ⟨⟨fun hne _ => absurd rfl hne, ?_, ?_, ?_⟩, ?_⟩
        · intro id data hsession
          cases hsession
        · intro id hstage
          cases hstage
        · intro id data idle readAt hstage
          cases hstage
        · intro hrotating
          cases hrotating
  | elevate userId markedAt ttl => exact h.quiet hlater rfl rfl h.ids fun r hr => .inl hr
  | crash i =>
      exact h.quiet hlater rfl rfl h.ids fun r hr => .inl (List.mem_of_mem_eraseIdx hr)
  | pass d => exact h.quiet hlater rfl rfl h.ids fun r hr => .inl hr
  | advance i answer =>
      cases hrequest : w.running[i]? with
      | none =>
          have heq : SessionService.step w (.advance i answer) = w := by
            simp only [SessionService.step, hrequest]
          rw [heq]
          exact h
      | some running =>
          cases running with
          | login data ttl =>
              have heq : SessionService.step w (.advance i answer) =
                  { w.create data ttl with running := w.running.eraseIdx i } := by
                simp only [SessionService.step, hrequest]
              rw [heq] at hlater ⊢
              refine h.quiet hlater rfl rfl ?_ fun r hr => .inl (List.mem_of_mem_eraseIdx hr)
              intro id s hs
              show id < w.nextId + 1
              have hs : w.sessions.put w.nextId ⟨data, some (w.now + ttl)⟩ id = some s := hs
              by_cases hnew : id = w.nextId
              · omega
              · rw [ExpiringKeys.put_ne _ _ hnew] at hs
                exact Nat.lt_succ_of_lt (h.ids id s hs)
          | request r =>
              have heq : SessionService.step w (.advance i answer) = { (w.proceed r answer).1 with
                  running := w.running.set i (.request { r with stage := (w.proceed r answer).2 }) } := by
                simp only [SessionService.step, hrequest]
              rw [heq]
              exact h.proceed hrequest (careful_request w hcareful hrequest) answer

theorem Sound.withinAbs (h : Sound w) {e : SessionEvent} (hcareful : Careful w e) :
    WithinAbs w e := by
  intro hlogin id session hsession hne t ht
  cases e with
  | login userId sessionVersion rememberMe idleTimeout absoluteTimeout => exact absurd hsession hne
  | request cookie active isLogout => exact absurd hsession hne
  | elevate userId markedAt ttl => exact absurd hsession hne
  | crash i => exact absurd hsession hne
  | pass d => exact absurd hsession hne
  | advance i answer =>
      cases hrequest : w.running[i]? with
      | none =>
          simp only [SessionService.step, hrequest] at hsession
          exact absurd hsession hne
      | some running =>
          cases running with
          | login data ttl =>
              simp only [isCreation, hrequest] at hlogin
              cases hlogin
          | request r =>
              have hcare := careful_request w hcareful hrequest
              have hmem : .request r ∈ w.running := List.mem_of_getElem? hrequest
              have hsession : (w.proceed r answer).1.sessions id = some session := by
                simp only [SessionService.step, hrequest] at hsession
                exact hsession
              revert hsession
              unfold SessionWorld.proceed
              cases hstage : r.stage with
              | reading => dsimp only; split <;> exact fun hs => absurd hs hne
              | judging data => dsimp only; split <;> exact fun hs => absurd hs hne
              | loading data => dsimp only; split <;> exact fun hs => absurd hs hne
              | checking data =>
                  dsimp only
                  split
                  · exact fun hs => absurd hs hne
                  · split <;> exact fun hs => absurd hs hne
              | timing data =>
                  dsimp only
                  split
                  · exact fun hs => absurd hs hne
                  · split <;> exact fun hs => absurd hs hne
              | preparing data pttl => exact fun hs => absurd hs hne
              | deleting j data => exact fun hs => absurd (ExpiringKeys.of_del hs) hne
              | guarded j data => dsimp only; split <;> exact fun hs => absurd hs hne
              | clocking j data idleTimeout =>
                  dsimp only
                  split <;> exact fun hs => absurd hs hne
              | destroying j => exact fun hs => absurd (ExpiringKeys.of_del hs) hne
              | dropping j => exact fun hs => absurd (ExpiringKeys.of_del hs) hne
              | finished => exact fun hs => absurd hs hne
              | setting data pttl =>
                  intro hs
                  have hs : w.sessions.put w.nextId ⟨data, some (w.now + pttl)⟩ id =
                    some session := hs
                  by_cases hid : id = w.nextId
                  · rw [hid, ExpiringKeys.put_self] at hs
                    cases hs
                    cases ht
                    unfold CarefulRequest at hcare
                    rw [hstage] at hcare
                    exact hcare
                  · rw [ExpiringKeys.put_ne _ _ hid] at hs
                    exact absurd hs hne
              | expiring j data idleTimeout readAt =>
                  intro hs
                  rcases ExpiringKeys.of_expire hs with hs | ⟨hj, hexpires, old, hlive, hvalue⟩
                  · exact absurd hs hne
                  · rw [hexpires] at ht
                    cases ht
                    have hclock := (h.requests r hmem).clock j data idleTimeout readAt hstage
                    have habs := ((h.requests r hmem).session j data
                      (by unfold SessionRequest.session; rw [hstage])).2 old
                      (ExpiringKeys.live_eq_some.mp hlive).1
                    rw [hvalue] at habs
                    rw [habs]
                    unfold CarefulRequest at hcare
                    rw [hstage] at hcare
                    rcases hcare with hcare | hcare
                    · omega
                    · omega

end Sound

/-! ## Runs -/

/-- The account is in order, and idle sessions last for a hundred. -/
def inOrder : Answer := ⟨true, 100⟩

def plainLogout : List SessionEvent :=
  [.login 7 0 false 100 1000, .advance 0 inOrder, .request 0 false true] ++
    List.replicate 6 (.advance 0 inOrder)

/-- A logout whose user was elevated meanwhile: the guard gives the session a new identifier, and
the one of the cookie is destroyed. -/
def elevatedLogout : List SessionEvent :=
  [.login 7 0 false 100 1000, .advance 0 inOrder, .pass 1, .elevate 7 1 5000,
    .request 0 false true] ++ List.replicate 10 (.advance 0 inOrder)

/-- A touch that has read the clock, and is written one millisecond later. -/
def delayedTouch : List SessionEvent :=
  [.login 7 0 false 100 10, .advance 0 inOrder, .request 0 true false] ++
    List.replicate 6 (.advance 0 inOrder) ++ [.pass 1]

end SessionService

end Wbme.Auth

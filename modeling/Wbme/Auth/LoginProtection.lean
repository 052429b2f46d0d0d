import Wbme.Auth.Store
import Wbme.Lib.Along
import Wbme.Lib.ExpiringKeys

/-! # Login protection

Attempts to log in run side by side, a command of the cache at a time. An attempt looks for the
lock of the account and of its address, has the password verified, and counts a failure for the
address and for the account. The first failure of a counter gives it an expiry, in a command of
its own; the failure that reaches the limit sets the lock.
-/

namespace Wbme.Auth

open Lib

namespace LoginProtectionService

/-! ## Settings, keys and attempts -/

/-- The limits of failures and how long, in milliseconds, counters and locks last. -/
structure LoginSettings where
  accountMaxAttempts : Nat
  accountLockTime : Nat
  ipMaxAttempts : Nat
  ipLockTime : Nat
  ipWindowTime : Nat
  accountMaxAttempts_pos : 0 < accountMaxAttempts
  accountLockTime_pos : 0 < accountLockTime
  ipWindowTime_pos : 0 < ipWindowTime
  ipLockTime_pos : 0 < ipLockTime

inductive LoginKey where
  | accountFail (userId : Nat)
  | accountLock (userId : Nat)
  | ipFail (ip : Nat)
  | ipLock (ip : Nat)
deriving DecidableEq

def LoginKey.isCounter : LoginKey → Bool
  | .accountFail _ => true
  | .ipFail _ => true
  | _ => false

/-- Where an attempt stands: the command it makes next. -/
inductive Stage where
  /-- `EXISTS` of the lock of the account. -/
  | checkingAccount
  /-- `EXISTS` of the lock of the address. -/
  | checkingIp (accountLocked : Bool)
  | verifying
  /-- `INCR` of the counter of the address. -/
  | countingIp
  /-- `EXPIRE` of the counter of the address. -/
  | expiringIp (count : Nat)
  /-- `EXISTS` of the lock of the address, before it is set. -/
  | probingIp
  /-- `SET` of the lock of the address. -/
  | lockingIp
  /-- `INCR` of the counter of the account. -/
  | countingAccount
  /-- `EXPIRE` of the counter of the account. -/
  | expiringAccount (count : Nat)
  /-- `EXISTS` of the lock of the account, before it is set. -/
  | probingAccount
  /-- `SET` of the lock of the account. -/
  | lockingAccount
  /-- `DEL` of the counter of the account. -/
  | clearing
  | finished
deriving DecidableEq

/-- An attempt; without an account where the number belongs to none that is active. -/
structure LoginAttempt where
  userId : Option Nat
  ip : Nat
  stage : Stage

/-- The cache with the attempts under way, by numbers given in their order. -/
structure LoginWorld where
  now : Nat
  keys : ExpiringKeys LoginKey Nat
  attempts : Nat → Option LoginAttempt
  started : Nat

def LoginWorld.start : LoginWorld := ⟨0, .empty, fun _ => none, 0⟩

namespace LoginAttempt

variable (settings : LoginSettings) (a : LoginAttempt)

/-- The stage behind the failures of the address. -/
def toAccount : Stage := if a.userId.isSome then .countingAccount else .finished

def afterIp (count : Nat) : Stage :=
  if settings.ipMaxAttempts ≤ count then .probingIp else a.toAccount

def afterAccount (count : Nat) : Stage :=
  if settings.accountMaxAttempts ≤ count then .probingAccount else .finished

/-- The value that `INCR` answers. -/
def counted (w : LoginWorld) (k : LoginKey) : Nat :=
  match w.keys.live w.now k with
  | none => 1
  | some e => e.value + 1

/-- One step of an attempt: the keys after it, and the stage behind it. `verified` is what the
verification of the password answers. -/
def proceed (w : LoginWorld) (verified : Bool) : ExpiringKeys LoginKey Nat × Stage :=
  match a.stage with
  | .checkingAccount =>
      (w.keys, .checkingIp (a.userId.any fun u => (w.keys.live w.now (.accountLock u)).isSome))
  | .checkingIp accountLocked =>
      if accountLocked || (w.keys.live w.now (.ipLock a.ip)).isSome then (w.keys, .finished)
      else if a.userId.isSome then (w.keys, .verifying)
      else (w.keys, .countingIp)
  | .verifying => if verified then (w.keys, .clearing) else (w.keys, .countingIp)
  | .countingIp =>
      (w.keys.incr w.now (.ipFail a.ip),
        if counted w (.ipFail a.ip) = 1 then .expiringIp 1
        else a.afterIp settings (counted w (.ipFail a.ip)))
  | .expiringIp count =>
      (w.keys.expire w.now (.ipFail a.ip) settings.ipWindowTime, a.afterIp settings count)
  | .probingIp =>
      if (w.keys.live w.now (.ipLock a.ip)).isSome then (w.keys, a.toAccount)
      else (w.keys, .lockingIp)
  | .lockingIp =>
      (w.keys.put (.ipLock a.ip) ⟨1, some (w.now + settings.ipLockTime)⟩, a.toAccount)
  | .countingAccount =>
      match a.userId with
      | none => (w.keys, .finished)
      | some u =>
          (w.keys.incr w.now (.accountFail u),
            if counted w (.accountFail u) = 1 then .expiringAccount 1
            else afterAccount settings (counted w (.accountFail u)))
  | .expiringAccount count =>
      match a.userId with
      | none => (w.keys, .finished)
      | some u =>
          (w.keys.expire w.now (.accountFail u) settings.accountLockTime,
            afterAccount settings count)
  | .probingAccount =>
      match a.userId with
      | none => (w.keys, .finished)
      | some u =>
          if (w.keys.live w.now (.accountLock u)).isSome then (w.keys, .finished)
          else (w.keys, .lockingAccount)
  | .lockingAccount =>
      match a.userId with
      | none => (w.keys, .finished)
      | some u =>
          (w.keys.put (.accountLock u) ⟨1, some (w.now + settings.accountLockTime)⟩, .finished)
  | .clearing =>
      match a.userId with
      | none => (w.keys, .finished)
      | some u => (w.keys.del (.accountFail u), .finished)
  | .finished => (w.keys, .finished)

end LoginAttempt

/-! ## Events -/

inductive LoginEvent where
  | attempt (userId : Option Nat) (ip : Nat)
  | advance (i : Nat) (verified : Bool)
  | crash (i : Nat)
  | pass (d : Nat)

def setAttempt (attempts : Nat → Option LoginAttempt) (i : Nat) (a : Option LoginAttempt) :
    Nat → Option LoginAttempt := fun j => if j = i then a else attempts j

def step (settings : LoginSettings) (w : LoginWorld) : LoginEvent → LoginWorld
  | .attempt userId ip =>
      { w with
        attempts := setAttempt w.attempts w.started (some ⟨userId, ip, .checkingAccount⟩)
        started := w.started + 1 }
  | .advance i verified =>
      match w.attempts i with
      | none => w
      | some a =>
          { w with
            keys := (a.proceed settings w verified).1
            attempts := setAttempt w.attempts i
              (some { a with stage := (a.proceed settings w verified).2 }) }
  | .crash i => { w with attempts := setAttempt w.attempts i none }
  | .pass d => { w with now := w.now + d }

/-! ## What is asked of the counters -/

/-- The password was verified and failed, and the failure is not counted for the account yet. -/
def Stage.isUncounted : Stage → Bool
  | .countingIp => true
  | .expiringIp _ => true
  | .probingIp => true
  | .lockingIp => true
  | .countingAccount => true
  | _ => false

/-- The attempt has passed the check of its account, and has not touched its counter. -/
def Stage.isAhead : Stage → Bool
  | .checkingIp accountLocked => !accountLocked
  | .verifying => true
  | .clearing => true
  | s => s.isUncounted

/-- The failure is counted for the account, and the attempt is not over. -/
def Stage.isBehind : Stage → Bool
  | .expiringAccount _ => true
  | .probingAccount => true
  | .lockingAccount => true
  | _ => false

/-- The attempt has passed the check of its account, and is not over. -/
def Stage.isUnderWay (s : Stage) : Bool := s.isAhead || s.isBehind

/-- A failure is being recorded. -/
def Stage.isRecording (s : Stage) : Bool := s.isUncounted || s.isBehind

/-- The key that the attempt has just opened, and that its next command gives an expiry. -/
def LoginAttempt.opened (a : LoginAttempt) : Option LoginKey :=
  match a.stage with
  | .expiringIp _ => some (.ipFail a.ip)
  | .expiringAccount _ => a.userId.map .accountFail
  | _ => none

def isAt (kind : Stage → Bool) (userId : Nat) (a : Option LoginAttempt) : Bool :=
  a.any fun a => a.userId == some userId && kind a.stage

section Promise

variable (settings : LoginSettings) (w : LoginWorld)

def failures (k : LoginKey) : Nat := ((w.keys.live w.now k).map (·.value)).getD 0

def attemptsAt (kind : Stage → Bool) (userId : Nat) : Nat :=
  (List.range w.started).countP fun i => isAt kind userId (w.attempts i)

/-- The failed verifications of an account in the window of its counter: those it has counted,
and those that are still to be counted. -/
def performed (userId : Nat) : Nat :=
  failures w (.accountFail userId) + attemptsAt w Stage.isUncounted userId

/-- The verifications of an account stay within the limit. -/
def Bounded : Prop := ∀ userId, performed w userId ≤ settings.accountMaxAttempts

def CountersExpire : Prop := ∀ k, k.isCounter = true → ∀ e, w.keys.live w.now k = some e →
  e.expiresAt.isSome = true

def LocksExpire : Prop := ∀ k, k.isCounter = false → ∀ e, w.keys.live w.now k = some e →
  e.expiresAt.isSome = true

/-- No attempt stands between the `INCR` that opens a counter and its `EXPIRE`. -/
def NoGap : Prop := ∀ i a, w.attempts i = some a → a.opened = none

/-- An attempt gets past the lock of its account only while no other attempt on the account is
under way, or while the failures of all of them, and its own, stay below the limit. No attempt
is lost while its failure is recorded. -/
def Careful : LoginEvent → Prop
  | .advance i _ => ∀ a, w.attempts i = some a → a.stage = .checkingAccount →
      ∀ userId, a.userId = some userId → w.keys.live w.now (.accountLock userId) = none →
        attemptsAt w Stage.isUnderWay userId = 0 ∨
        failures w (.accountFail userId) + attemptsAt w Stage.isUnderWay userId + 1
          < settings.accountMaxAttempts
  | .crash i => ∀ a, w.attempts i = some a → a.stage.isRecording = false
  | _ => True

instance : ∀ e, Decidable (Careful settings w e)
  | .advance i _ => inferInstanceAs (Decidable (∀ a ∈ w.attempts i, a.stage = .checkingAccount →
      ∀ userId ∈ a.userId, w.keys.live w.now (.accountLock userId) = none →
        attemptsAt w Stage.isUnderWay userId = 0 ∨
        failures w (.accountFail userId) + attemptsAt w Stage.isUnderWay userId + 1
          < settings.accountMaxAttempts))
  | .crash i => inferInstanceAs (Decidable (∀ a ∈ w.attempts i, a.stage.isRecording = false))
  | .attempt _ _ => isTrue trivial
  | .pass _ => isTrue trivial

end Promise

/-! ## Counting attempts -/

variable {a : LoginAttempt}

section Counting

theorem countP_range_of_ne {p q : Nat → Bool} {i n : Nat} (hi : i < n)
    (h : ∀ j, j ≠ i → p j = q j) :
    (List.range n).countP p + (q i).toNat = (List.range n).countP q + (p i).toNat := by
  induction n with
  | zero => cases hi
  | succ n ih =>
      simp only [List.range_succ, List.countP_append, List.countP_singleton]
      rcases Nat.lt_succ_iff_lt_or_eq.mp hi with hlt | rfl
      · have hn := ih hlt
        rw [h n (by omega)]
        omega
      · have hbelow : (List.range i).countP p = (List.range i).countP q := by
          apply List.countP_congr
          intro j hj
          rw [h j (Nat.ne_of_lt (List.mem_range.mp hj))]
        rw [hbelow]
        cases p i <;> cases q i <;> simp

variable {w w' : LoginWorld} {i : Nat} {o : Option LoginAttempt} (kind : Stage → Bool)
  (userId : Nat)

theorem attemptsAt_setAttempt (hi : i < w.started)
    (hattempts : w'.attempts = setAttempt w.attempts i o) (hstarted : w'.started = w.started) :
    attemptsAt w' kind userId + (isAt kind userId (w.attempts i)).toNat =
      attemptsAt w kind userId + (isAt kind userId o).toNat := by
  have hself : isAt kind userId (w'.attempts i) = isAt kind userId o := by
    rw [hattempts]
    unfold setAttempt
    rw [if_pos rfl]
  rw [← hself]
  unfold attemptsAt
  rw [hstarted]
  apply countP_range_of_ne hi
  intro j hj
  rw [hattempts]
  unfold setAttempt
  rw [if_neg hj]

theorem attemptsAt_started (hattempts : w'.attempts = setAttempt w.attempts w.started o)
    (hstarted : w'.started = w.started + 1) (ho : isAt kind userId o = false) :
    attemptsAt w' kind userId = attemptsAt w kind userId := by
  unfold attemptsAt
  rw [hstarted, List.range_succ, List.countP_append, List.countP_singleton, hattempts]
  have hbelow : ∀ j ∈ List.range w.started, setAttempt w.attempts w.started o j = w.attempts j := by
    intro j hj
    exact if_neg (Nat.ne_of_lt (List.mem_range.mp hj))
  rw [List.countP_congr fun j hj => by rw [hbelow j hj]]
  have hself : setAttempt w.attempts w.started o w.started = o := if_pos rfl
  rw [hself, if_neg]
  · exact Nat.add_zero _
  · rw [ho]
    exact Bool.false_ne_true

theorem attemptsAt_pos (hi : i < w.started) (ha : w.attempts i = some a)
    (huser : a.userId = some userId) (hkind : kind a.stage = true) :
    0 < attemptsAt w kind userId := by
  unfold attemptsAt
  rw [List.countP_pos_iff]
  refine ⟨i, List.mem_range.mpr hi, ?_⟩
  unfold isAt
  rw [ha, Option.any_some, huser, hkind, beq_self_eq_true]
  rfl

theorem attemptsAt_mono {kind kind' : Stage → Bool} (w : LoginWorld) (userId : Nat)
    (h : ∀ s, kind s = true → kind' s = true) :
    attemptsAt w kind userId ≤ attemptsAt w kind' userId := by
  apply List.countP_mono_left
  intro i _ hi
  unfold isAt at hi ⊢
  rw [Option.any_eq_true] at hi ⊢
  obtain ⟨a, ha, hat⟩ := hi
  refine ⟨a, ha, ?_⟩
  rw [Bool.and_eq_true] at hat ⊢
  exact ⟨hat.1, h _ hat.2⟩

end Counting

/-! ## What holds of an account -/

/-- The failures of an account with the attempts that are ahead of its counter. -/
def load (w : LoginWorld) (userId : Nat) : Nat :=
  failures w (.accountFail userId) + attemptsAt w Stage.isAhead userId

/-- The failures of an account and all that may still be counted stay within the limit, strictly
so where several attempts are under way or the lock is set. When the limit is reached and no
attempt is under way, the lock outlives the counter. -/
structure AccountSound (settings : LoginSettings) (w : LoginWorld) (userId : Nat) : Prop where
  total : load w userId ≤ settings.accountMaxAttempts
  lone : 2 ≤ attemptsAt w Stage.isUnderWay userId → load w userId < settings.accountMaxAttempts
  locked : ∀ lock, w.keys.live w.now (.accountLock userId) = some lock →
    0 < attemptsAt w Stage.isUnderWay userId → load w userId < settings.accountMaxAttempts
  small : ∀ i a count, w.attempts i = some a → a.userId = some userId →
    a.stage = .expiringAccount count → count < settings.accountMaxAttempts →
      load w userId < settings.accountMaxAttempts
  reached : attemptsAt w Stage.isUnderWay userId = 0 →
    settings.accountMaxAttempts ≤ failures w (.accountFail userId) →
      ∃ counter lock t t', w.keys.live w.now (.accountFail userId) = some counter ∧
        counter.expiresAt = some t ∧ w.keys (.accountLock userId) = some lock ∧
        lock.expiresAt = some t' ∧ t ≤ t'
  ends : ∀ e t, w.keys (.accountFail userId) = some e → e.expiresAt = some t →
    t ≤ w.now + settings.accountLockTime

section Account

variable {settings : LoginSettings} {w w' : LoginWorld} {userId i : Nat} {a b : LoginAttempt}
  {o : Option LoginAttempt}

theorem failures_congr {k : LoginKey} (hnow : w'.now = w.now) (hkey : w'.keys k = w.keys k) :
    failures w' k = failures w k := by
  unfold failures
  rw [hnow, ExpiringKeys.live_congr hkey]

theorem live_of_failures {k : LoginKey} (h : 0 < failures w k) :
    ∃ e, w.keys.live w.now k = some e ∧ e.value = failures w k := by
  unfold failures at h ⊢
  cases hlive : w.keys.live w.now k with
  | none =>
      rw [hlive] at h
      cases h
  | some e => exact ⟨e, rfl, rfl⟩

theorem of_setAttempt {attempts : Nat → Option LoginAttempt} {j : Nat}
    (h : setAttempt attempts i o j = some b) : j = i ∧ o = some b ∨ j ≠ i ∧ attempts j = some b := by
  unfold setAttempt at h
  split at h
  · exact .inl ⟨‹_›, h⟩
  · exact .inr ⟨‹_›, h⟩

variable {kind : Stage → Bool}

theorem isAt_some (huser : a.userId = some userId) : isAt kind userId (some a) = kind a.stage := by
  unfold isAt
  rw [Option.any_some, huser, beq_self_eq_true, Bool.true_and]

theorem isAt_none_of_ne (huser : a.userId ≠ some userId) : isAt kind userId (some a) = false := by
  unfold isAt
  rw [Option.any_some, beq_false_of_ne huser, Bool.false_and]

theorem AccountSound.of_load (h : AccountSound settings w userId)
    (hload : load w' userId ≤ load w userId)
    (hunder : attemptsAt w' Stage.isUnderWay userId ≤ attemptsAt w Stage.isUnderWay userId)
    (hlocked : ∀ lock, w'.keys.live w'.now (.accountLock userId) = some lock →
      0 < attemptsAt w' Stage.isUnderWay userId → load w userId < settings.accountMaxAttempts)
    (hsmall : ∀ j b count, w'.attempts j = some b → b.userId = some userId →
      b.stage = .expiringAccount count → count < settings.accountMaxAttempts →
        load w userId < settings.accountMaxAttempts)
    (hreached : attemptsAt w' Stage.isUnderWay userId = 0 →
      settings.accountMaxAttempts ≤ failures w' (.accountFail userId) →
        ∃ counter lock t t', w'.keys.live w'.now (.accountFail userId) = some counter ∧
          counter.expiresAt = some t ∧ w'.keys (.accountLock userId) = some lock ∧
          lock.expiresAt = some t' ∧ t ≤ t')
    (hends : ∀ e t, w'.keys (.accountFail userId) = some e → e.expiresAt = some t →
      t ≤ w'.now + settings.accountLockTime) :
    AccountSound settings w' userId where
  total := Nat.le_trans hload h.total
  lone htwo := Nat.lt_of_le_of_lt hload (h.lone (Nat.le_trans htwo hunder))
  locked lock hlock hpos := Nat.lt_of_le_of_lt hload (hlocked lock hlock hpos)
  small j b count hb huser hstage hcount :=
    Nat.lt_of_le_of_lt hload (hsmall j b count hb huser hstage hcount)
  reached := hreached
  ends := hends

theorem AccountSound.quiet (h : AccountSound settings w userId) (hi : i < w.started)
    (ha : w.attempts i = some a) (hnow : w'.now = w.now) (hstarted : w'.started = w.started)
    (hattempts : w'.attempts = setAttempt w.attempts i o)
    (hfail : w'.keys (.accountFail userId) = w.keys (.accountFail userId))
    (hlock : w'.keys (.accountLock userId) = w.keys (.accountLock userId))
    (hold : a.userId = some userId → a.stage.isBehind = false)
    (hnew : ∀ b, o = some b → b.userId = some userId → b.stage.isBehind = false ∧
      (b.stage.isAhead = true → a.userId = some userId ∧ a.stage.isAhead = true)) :
    AccountSound settings w' userId := by
  have hahead := attemptsAt_setAttempt Stage.isAhead userId hi hattempts hstarted
  have hunder := attemptsAt_setAttempt Stage.isUnderWay userId hi hattempts hstarted
  rw [ha] at hahead hunder
  have hfailures := failures_congr hnow hfail
  have hsame : isAt Stage.isUnderWay userId (some a) = isAt Stage.isAhead userId (some a) := by
    by_cases huser : a.userId = some userId
    · rw [isAt_some huser, isAt_some huser, Stage.isUnderWay, hold huser, Bool.or_false]
    · rw [isAt_none_of_ne huser, isAt_none_of_ne huser]
  have hsame' : isAt Stage.isUnderWay userId o = isAt Stage.isAhead userId o := by
    cases o with
    | none => rfl
    | some b =>
        by_cases huser : b.userId = some userId
        · rw [isAt_some huser, isAt_some huser, Stage.isUnderWay, (hnew b rfl huser).1,
            Bool.or_false]
        · rw [isAt_none_of_ne huser, isAt_none_of_ne huser]
  have hless : (isAt Stage.isAhead userId o).toNat ≤ (isAt Stage.isAhead userId (some a)).toNat := by
    cases o with
    | none => exact Nat.zero_le _
    | some b =>
        by_cases huser : b.userId = some userId
        · rw [isAt_some huser]
          cases hstage : b.stage.isAhead with
          | false => exact Nat.zero_le _
          | true =>
              obtain ⟨hauser, hastage⟩ := (hnew b rfl huser).2 hstage
              rw [isAt_some hauser, hastage]
        · rw [isAt_none_of_ne huser]
          exact Nat.zero_le _
  rw [hsame, hsame'] at hunder
  have hload : load w' userId ≤ load w userId := by
    unfold load
    omega
  have htotal := h.total
  apply h.of_load hload (by omega)
  · intro lock hlive hpos
    rw [hnow, ExpiringKeys.live_congr hlock] at hlive
    exact h.locked lock hlive (by omega)
  · intro j b count hb huser hstage hcount
    rw [hattempts] at hb
    rcases of_setAttempt hb with ⟨-, ho⟩ | ⟨-, hb⟩
    · have hbehind := (hnew b ho huser).1
      rw [hstage] at hbehind
      cases hbehind
    · exact h.small j b count hb huser hstage hcount
  · intro hzero hmax
    -- an attempt that goes was ahead of the counter, which is then below the limit
    rw [hfailures] at hmax
    have hzero' : attemptsAt w Stage.isUnderWay userId = 0 := by
      unfold load at htotal
      omega
    rw [hnow, ExpiringKeys.live_congr hfail, hlock]
    exact h.reached hzero' hmax
  · intro e t he ht
    rw [hfail] at he
    rw [hnow]
    exact h.ends e t he ht

/-! ### The steps of an attempt on the account -/

/-- An attempt on an account has made a step. -/
structure Moved (w w' : LoginWorld) (userId i : Nat) (a : LoginAttempt) (stage : Stage) : Prop where
  begun : i < w.started
  attempt : w.attempts i = some a
  user : a.userId = some userId
  now : w'.now = w.now
  started : w'.started = w.started
  attempts : w'.attempts = setAttempt w.attempts i (some { a with stage := stage })

variable {stage : Stage}

theorem Moved.attemptsAt (h : Moved w w' userId i a stage) (kind : Stage → Bool) :
    attemptsAt w' kind userId + (kind a.stage).toNat =
      attemptsAt w kind userId + (kind stage).toNat := by
  have hcount := attemptsAt_setAttempt kind userId h.begun h.attempts h.started
  rw [h.attempt, isAt_some h.user, isAt_some (show ({ a with stage := stage } : LoginAttempt).userId
    = some userId from h.user)] at hcount
  exact hcount

theorem Moved.of_attempts (h : Moved w w' userId i a stage) {j : Nat}
    (hb : w'.attempts j = some b) (hne : b.stage ≠ stage) : j ≠ i ∧ w.attempts j = some b := by
  rw [h.attempts] at hb
  rcases of_setAttempt hb with ⟨-, hself⟩ | hother
  · cases hself
    exact absurd rfl hne
  · exact hother

theorem ahead_le_underWay (w : LoginWorld) (userId : Nat) :
    LoginProtectionService.attemptsAt w Stage.isAhead userId ≤
      LoginProtectionService.attemptsAt w Stage.isUnderWay userId := by
  apply attemptsAt_mono
  intro s hs
  unfold Stage.isUnderWay
  rw [hs, Bool.true_or]

theorem AccountSound.entered (h : AccountSound settings w userId)
    (hfresh : ∀ j b, w.attempts j = some b → j < w.started)
    (hmoved : Moved w w' userId i a (.checkingIp false)) (hstage : a.stage = .checkingAccount)
    (hkeys : w'.keys = w.keys) (hfree : w.keys.live w.now (.accountLock userId) = none)
    (hcareful : LoginProtectionService.attemptsAt w Stage.isUnderWay userId = 0 ∨
      failures w (.accountFail userId) +
        LoginProtectionService.attemptsAt w Stage.isUnderWay userId + 1
          < settings.accountMaxAttempts) :
    AccountSound settings w' userId := by
  have hahead := hmoved.attemptsAt Stage.isAhead
  have hunder := hmoved.attemptsAt Stage.isUnderWay
  rw [hstage] at hahead hunder
  have hle := ahead_le_underWay w userId
  have hfailures : failures w' (.accountFail userId) = failures w (.accountFail userId) :=
    failures_congr hmoved.now (by rw [hkeys])
  change _ + 0 = _ + 1 at hahead hunder
  -- with nobody under way the counter is below the limit, for the lock would be set
  have hbelow : failures w (.accountFail userId) +
      LoginProtectionService.attemptsAt w Stage.isUnderWay userId < settings.accountMaxAttempts := by
    rcases hcareful with hzero | hroom
    · by_contra hmax
      obtain ⟨counter, lock, t, t', hcounter, ht, hlock, ht', hle'⟩ :=
        h.reached hzero (by omega)
      have hlive : w.keys.live w.now (.accountLock userId) = some lock := by
        rw [ExpiringKeys.live_eq_some]
        refine ⟨hlock, ?_⟩
        intro t'' ht''
        rw [ht'] at ht''
        cases ht''
        exact Nat.lt_of_lt_of_le ((ExpiringKeys.live_eq_some.mp hcounter).2 t ht) hle'
      rw [hfree] at hlive
      cases hlive
    · omega
  refine ⟨?_, ?_, ?_, ?_, ?_, ?_⟩
  · unfold load
    omega
  · intro htwo
    unfold load
    omega
  · intro lock hlive
    rw [hmoved.now, hkeys, hfree] at hlive
    cases hlive
  · intro j b count hb huser hexpiring _
    have hne : b.stage ≠ .checkingIp false := by
      rw [hexpiring]
      exact Stage.noConfusion
    obtain ⟨-, hb⟩ := hmoved.of_attempts hb hne
    have hpos : 0 < LoginProtectionService.attemptsAt w Stage.isUnderWay userId := by
      apply attemptsAt_pos _ _ (hfresh j b hb) hb huser
      rw [hexpiring]
      rfl
    unfold load
    omega
  · intro hzero
    omega
  · intro e t he ht
    rw [hkeys] at he
    rw [hmoved.now]
    exact h.ends e t he ht

theorem Moved.load_of_behind (h : Moved w w' userId i a stage) (hold : a.stage.isAhead = false)
    (hnew : stage.isAhead = false)
    (hfailures : failures w' (.accountFail userId) = failures w (.accountFail userId)) :
    load w' userId = load w userId := by
  have hahead := h.attemptsAt Stage.isAhead
  rw [hold, hnew] at hahead
  unfold load
  rw [hfailures]
  omega

theorem afterAccount_isAhead (count : Nat) :
    (LoginAttempt.afterAccount settings count).isAhead = false := by
  unfold LoginAttempt.afterAccount
  split <;> rfl

theorem afterAccount_ne_expiring (count n : Nat) :
    LoginAttempt.afterAccount settings count ≠ .expiringAccount n := by
  unfold LoginAttempt.afterAccount
  split <;> exact Stage.noConfusion

theorem afterAccount_isUnderWay {count : Nat} (hcount : settings.accountMaxAttempts ≤ count) :
    (LoginAttempt.afterAccount settings count).isUnderWay = true := by
  unfold LoginAttempt.afterAccount
  rw [if_pos hcount]
  rfl

theorem AccountSound.counted (h : AccountSound settings w userId)
    (hmoved : Moved w w' userId i a (if LoginAttempt.counted w (.accountFail userId) = 1
      then .expiringAccount 1
      else LoginAttempt.afterAccount settings (LoginAttempt.counted w (.accountFail userId))))
    (hstage : a.stage = .countingAccount)
    (hkeys : w'.keys = w.keys.incr w.now (.accountFail userId)) :
    AccountSound settings w' userId := by
  have hahead := hmoved.attemptsAt Stage.isAhead
  have hunder := hmoved.attemptsAt Stage.isUnderWay
  have hlive := ExpiringKeys.live_incr_self w.keys w.now (.accountFail userId)
  have hcounted : LoginAttempt.counted w (.accountFail userId) =
      failures w (.accountFail userId) + 1 := by
    unfold LoginAttempt.counted failures
    cases w.keys.live w.now (.accountFail userId) <;> rfl
  have hfailures : failures w' (.accountFail userId) = failures w (.accountFail userId) + 1 := by
    unfold failures
    rw [hkeys, hmoved.now, hlive]
    cases w.keys.live w.now (.accountFail userId) <;> rfl
  have hlock : w'.keys (.accountLock userId) = w.keys (.accountLock userId) := by
    rw [hkeys]
    exact ExpiringKeys.incr_ne _ _ LoginKey.noConfusion
  rw [hcounted] at hmoved hahead hunder
  have hload : load w' userId = load w userId := by
    have hnew : (if failures w (.accountFail userId) + 1 = 1 then .expiringAccount 1 else
        LoginAttempt.afterAccount settings (failures w (.accountFail userId) + 1)).isAhead =
          false := by
      split
      · rfl
      · exact afterAccount_isAhead _
    rw [hstage, hnew] at hahead
    change _ + 1 = _ + 0 at hahead
    unfold load
    omega
  have hpos : 0 < LoginProtectionService.attemptsAt w Stage.isUnderWay userId := by
    apply attemptsAt_pos _ _ hmoved.begun hmoved.attempt hmoved.user
    rw [hstage]
    rfl
  have hle : LoginProtectionService.attemptsAt w' Stage.isUnderWay userId ≤
      LoginProtectionService.attemptsAt w Stage.isUnderWay userId := by
    rw [hstage] at hunder
    change _ + 1 = _ at hunder
    have hone := Bool.toNat_le (if failures w (.accountFail userId) + 1 = 1
      then Stage.expiringAccount 1
      else LoginAttempt.afterAccount settings (failures w (.accountFail userId) + 1)).isUnderWay
    omega
  apply h.of_load (Nat.le_of_eq hload) hle
  · intro lock hlocked _
    rw [hmoved.now, ExpiringKeys.live_congr hlock] at hlocked
    exact h.locked lock hlocked hpos
  · intro j b count hb huser hexpiring hcount
    rw [hmoved.attempts] at hb
    rcases of_setAttempt hb with ⟨-, hself⟩ | ⟨-, hb⟩
    · cases hself
      dsimp only at hexpiring
      split at hexpiring
      · -- the counter begins with this failure
        cases hexpiring
        by_cases htwo : 2 ≤ LoginProtectionService.attemptsAt w Stage.isUnderWay userId
        · exact h.lone htwo
        · have hle' := ahead_le_underWay w userId
          unfold load
          omega
      · exact absurd hexpiring (afterAccount_ne_expiring _ _)
    · exact h.small j b count hb huser hexpiring hcount
  · intro hzero hmax
    -- an attempt that reaches the limit goes on to the lock
    have hon : (if failures w (.accountFail userId) + 1 = 1 then .expiringAccount 1 else
        LoginAttempt.afterAccount settings (failures w (.accountFail userId) + 1)).isUnderWay =
          true := by
      split
      · rfl
      · rw [hfailures] at hmax
        exact afterAccount_isUnderWay hmax
    rw [hon, hstage] at hunder
    change _ + 1 = _ + 1 at hunder
    omega
  · intro e t he ht
    rw [hkeys, ExpiringKeys.incr_self] at he
    rw [hmoved.now]
    cases hold : w.keys.live w.now (.accountFail userId) with
    | none =>
        rw [hold] at he
        cases he
        cases ht
    | some old =>
        rw [hold] at he
        cases he
        exact h.ends old t (ExpiringKeys.live_eq_some.mp hold).1 ht

theorem AccountSound.expired (h : AccountSound settings w userId) {count : Nat}
    (hmoved : Moved w w' userId i a (LoginAttempt.afterAccount settings count))
    (hstage : a.stage = .expiringAccount count)
    (hkeys : w'.keys = w.keys.expire w.now (.accountFail userId) settings.accountLockTime) :
    AccountSound settings w' userId := by
  have hunder := hmoved.attemptsAt Stage.isUnderWay
  rw [hstage] at hunder
  change _ + 1 = _ at hunder
  have hpos : 0 < LoginProtectionService.attemptsAt w Stage.isUnderWay userId := by
    apply attemptsAt_pos _ _ hmoved.begun hmoved.attempt hmoved.user
    rw [hstage]
    rfl
  have hlive : w'.keys.live w'.now (.accountFail userId) =
      (w.keys.live w.now (.accountFail userId)).map fun e =>
        { e with expiresAt := some (w.now + settings.accountLockTime) } := by
    rw [hkeys, hmoved.now]
    exact ExpiringKeys.live_expire_self settings.accountLockTime_pos
  have hfailures : failures w' (.accountFail userId) = failures w (.accountFail userId) := by
    unfold failures
    rw [hlive]
    cases w.keys.live w.now (.accountFail userId) <;> rfl
  have hlock : w'.keys (.accountLock userId) = w.keys (.accountLock userId) := by
    rw [hkeys]
    exact ExpiringKeys.expire_ne _ _ _ LoginKey.noConfusion
  have hload : load w' userId = load w userId :=
    hmoved.load_of_behind (by rw [hstage]; rfl) (afterAccount_isAhead count) hfailures
  have hone := Bool.toNat_le (LoginAttempt.afterAccount settings count).isUnderWay
  apply h.of_load (Nat.le_of_eq hload) (by omega)
  · intro lock hlocked _
    rw [hmoved.now, ExpiringKeys.live_congr hlock] at hlocked
    exact h.locked lock hlocked hpos
  · intro j b n hb huser hexpiring hn
    have hne : b.stage ≠ LoginAttempt.afterAccount settings count := by
      rw [hexpiring]
      exact (afterAccount_ne_expiring count n).symm
    exact h.small j b n (hmoved.of_attempts hb hne).2 huser hexpiring hn
  · intro hzero hmax
    -- an attempt that has reached the limit goes on to the lock
    by_cases hcount : settings.accountMaxAttempts ≤ count
    · rw [afterAccount_isUnderWay hcount] at hunder
      change _ = _ + 1 at hunder
      omega
    · have hsmall := h.small i a count hmoved.attempt hmoved.user hstage (by omega)
      unfold load at hsmall
      omega
  · intro e t he ht
    rw [hkeys] at he
    rw [hmoved.now]
    rcases ExpiringKeys.of_expire he with hsame | ⟨-, hnew, -⟩
    · exact h.ends e t hsame ht
    · rw [hnew] at ht
      cases ht
      exact Nat.le_refl _

theorem AccountSound.probed (h : AccountSound settings w userId)
    (hmoved : Moved w w' userId i a stage) (hstage : a.stage = .probingAccount)
    (hkeys : w'.keys = w.keys)
    (hnew : stage = .lockingAccount ∨
      stage = .finished ∧ ∃ lock, w.keys.live w.now (.accountLock userId) = some lock) :
    AccountSound settings w' userId := by
  have hunder := hmoved.attemptsAt Stage.isUnderWay
  rw [hstage] at hunder
  change _ + 1 = _ at hunder
  have hpos : 0 < LoginProtectionService.attemptsAt w Stage.isUnderWay userId := by
    apply attemptsAt_pos _ _ hmoved.begun hmoved.attempt hmoved.user
    rw [hstage]
    rfl
  have hfailures : failures w' (.accountFail userId) = failures w (.accountFail userId) :=
    failures_congr hmoved.now (by rw [hkeys])
  have hahead : stage.isAhead = false := by
    rcases hnew with rfl | ⟨rfl, -⟩ <;> rfl
  have hload : load w' userId = load w userId :=
    hmoved.load_of_behind (by rw [hstage]; rfl) hahead hfailures
  have hone := Bool.toNat_le stage.isUnderWay
  apply h.of_load (Nat.le_of_eq hload) (by omega)
  · intro lock hlocked _
    rw [hmoved.now, hkeys] at hlocked
    exact h.locked lock hlocked hpos
  · intro j b n hb huser hexpiring hn
    have hne : b.stage ≠ stage := by
      rw [hexpiring]
      rcases hnew with rfl | ⟨rfl, -⟩ <;> exact Stage.noConfusion
    exact h.small j b n (hmoved.of_attempts hb hne).2 huser hexpiring hn
  · intro hzero hmax
    rcases hnew with rfl | ⟨rfl, lock, hlock⟩
    · change _ = _ + 1 at hunder
      omega
    · have hlocked := h.locked lock hlock hpos
      unfold load at hlocked
      omega
  · intro e t he ht
    rw [hkeys] at he
    rw [hmoved.now]
    exact h.ends e t he ht

theorem stage_of_opened (h : b.opened = some (.accountFail userId)) :
    b.userId = some userId ∧ ∃ count, b.stage = .expiringAccount count := by
  unfold LoginAttempt.opened at h
  split at h
  · cases h
  · rename_i count hstage
    cases huser : b.userId with
    | none =>
        rw [huser] at h
        cases h
    | some u =>
        rw [huser] at h
        cases h
        exact ⟨rfl, count, hstage⟩
  · cases h

theorem AccountSound.lockSet (h : AccountSound settings w userId)
    (hopen : ∀ e, w.keys (.accountFail userId) = some e → e.expiresAt = none →
      ∃ j b, w.attempts j = some b ∧ b.opened = some (.accountFail userId))
    (hfresh : ∀ j b, w.attempts j = some b → j < w.started)
    (hmoved : Moved w w' userId i a .finished) (hstage : a.stage = .lockingAccount)
    (hkeys : w'.keys =
      w.keys.put (.accountLock userId) ⟨1, some (w.now + settings.accountLockTime)⟩) :
    AccountSound settings w' userId := by
  have hunder := hmoved.attemptsAt Stage.isUnderWay
  rw [hstage] at hunder
  change _ + 1 = _ + 0 at hunder
  have hfail : w'.keys (.accountFail userId) = w.keys (.accountFail userId) := by
    rw [hkeys]
    exact ExpiringKeys.put_ne _ _ LoginKey.noConfusion
  have hfailures := failures_congr hmoved.now hfail
  have hload : load w' userId = load w userId :=
    hmoved.load_of_behind (by rw [hstage]; rfl) rfl hfailures
  apply h.of_load (Nat.le_of_eq hload) (by omega)
  · intro _ _ hpos
    exact h.lone (by omega)
  · intro j b n hb huser hexpiring hn
    have hne : b.stage ≠ .finished := by
      rw [hexpiring]
      exact Stage.noConfusion
    exact h.small j b n (hmoved.of_attempts hb hne).2 huser hexpiring hn
  · intro hzero hmax
    have hlive : w'.keys.live w'.now (.accountFail userId) =
        w.keys.live w.now (.accountFail userId) := by
      rw [hmoved.now, ExpiringKeys.live_congr hfail]
    have hpositive := settings.accountMaxAttempts_pos
    obtain ⟨e, he, -⟩ := live_of_failures (Nat.lt_of_lt_of_le hpositive hmax)
    have hkey : w.keys (.accountFail userId) = some e := by
      rw [hlive] at he
      exact (ExpiringKeys.live_eq_some.mp he).1
    cases hends : e.expiresAt with
    | none =>
        -- somebody else is about to give the counter its expiry
        obtain ⟨j, b, hb, hopened⟩ := hopen e hkey hends
        obtain ⟨huser, n, hexpiring⟩ := stage_of_opened hopened
        have hji : j ≠ i := by
          intro hji
          rw [hji, hmoved.attempt] at hb
          cases hb
          rw [hstage] at hexpiring
          cases hexpiring
        have hb' : w'.attempts j = some b := by
          rw [hmoved.attempts]
          unfold setAttempt
          rw [if_neg hji, hb]
        have hpos : 0 < LoginProtectionService.attemptsAt w' Stage.isUnderWay userId := by
          apply attemptsAt_pos _ _ _ hb' huser
          · rw [hexpiring]
            rfl
          · rw [hmoved.started]
            exact hfresh j b hb
        omega
    | some t =>
        refine ⟨e, ⟨1, some (w.now + settings.accountLockTime)⟩, t, _, he, hends, ?_, rfl,
          h.ends e t hkey hends⟩
        rw [hkeys]
        exact ExpiringKeys.put_self _ _ _
  · intro e t he ht
    rw [hfail] at he
    rw [hmoved.now]
    exact h.ends e t he ht

theorem AccountSound.cleared (h : AccountSound settings w userId)
    (hmoved : Moved w w' userId i a .finished) (hstage : a.stage = .clearing)
    (hkeys : w'.keys = w.keys.del (.accountFail userId)) :
    AccountSound settings w' userId := by
  have hahead := hmoved.attemptsAt Stage.isAhead
  have hunder := hmoved.attemptsAt Stage.isUnderWay
  rw [hstage] at hahead hunder
  change _ + 1 = _ + 0 at hahead hunder
  have hfailures : failures w' (.accountFail userId) = 0 := by
    unfold failures
    rw [hkeys, ExpiringKeys.live_del_self]
    rfl
  have hlock : w'.keys (.accountLock userId) = w.keys (.accountLock userId) := by
    rw [hkeys]
    exact ExpiringKeys.del_ne _ LoginKey.noConfusion
  have hload : load w' userId ≤ load w userId := by
    unfold load
    omega
  apply h.of_load hload (by omega)
  · intro lock hlocked hpos
    rw [hmoved.now, ExpiringKeys.live_congr hlock] at hlocked
    exact h.locked lock hlocked (by omega)
  · intro j b n hb huser hexpiring hn
    have hne : b.stage ≠ .finished := by
      rw [hexpiring]
      exact Stage.noConfusion
    exact h.small j b n (hmoved.of_attempts hb hne).2 huser hexpiring hn
  · intro _ hmax
    have hpositive := settings.accountMaxAttempts_pos
    omega
  · intro e t he
    rw [hkeys, ExpiringKeys.del_self] at he
    cases he

end Account

/-! ## What a step of an attempt does -/

def LoginKey.account : LoginKey → Option Nat
  | .accountFail userId => some userId
  | .accountLock userId => some userId
  | _ => none

/-- The next command writes a key of the account. -/
def Stage.writesAccount : Stage → Bool
  | .countingAccount => true
  | .expiringAccount _ => true
  | .lockingAccount => true
  | .clearing => true
  | _ => false

/-- A key of an account is written by an attempt on it only, at a stage for it. -/
def MayWrite (a : LoginAttempt) (k : LoginKey) : Prop :=
  ∀ userId, k.account = some userId → a.userId = some userId ∧ a.stage.writesAccount = true

inductive Command (w : LoginWorld) (a : LoginAttempt) :
    ExpiringKeys LoginKey Nat → Stage → Prop where
  | reads {stage : Stage} (hopened : a.opened = none) : Command w a w.keys stage
  | counts {stage : Stage} (k : LoginKey) (hk : k.isCounter = true) (hwrite : MayWrite a k)
      (hopened : a.opened = none)
      (hopens : w.keys.live w.now k = none →
        ({ a with stage := stage } : LoginAttempt).opened = some k) :
      Command w a (w.keys.incr w.now k) stage
  | expires {stage : Stage} (k : LoginKey) (ttl : Nat) (hk : k.isCounter = true)
      (hwrite : MayWrite a k) (hopened : a.opened = some k) :
      Command w a (w.keys.expire w.now k ttl) stage
  | locks {stage : Stage} (k : LoginKey) (e : CacheEntry Nat) (hk : k.isCounter = false)
      (hwrite : MayWrite a k) (hopened : a.opened = none) (hends : e.expiresAt.isSome = true) :
      Command w a (w.keys.put k e) stage
  | clears {stage : Stage} (k : LoginKey) (hk : k.isCounter = true) (hwrite : MayWrite a k)
      (hopened : a.opened = none) : Command w a (w.keys.del k) stage

section Proceed

variable (settings : LoginSettings) (w : LoginWorld) (a : LoginAttempt) (verified : Bool)
  {userId : Nat} {k : LoginKey} {e : CacheEntry Nat} {keys : ExpiringKeys LoginKey Nat}
  {stage : Stage}

theorem opened_eq_none (hip : ∀ count, a.stage ≠ .expiringIp count)
    (haccount : ∀ count, a.stage ≠ .expiringAccount count) : a.opened = none := by
  unfold LoginAttempt.opened
  split
  · exact absurd ‹_› (hip _)
  · exact absurd ‹_› (haccount _)
  · rfl

theorem counted_eq_one (hlive : w.keys.live w.now k = none) : LoginAttempt.counted w k = 1 := by
  unfold LoginAttempt.counted
  rw [hlive]

theorem mayWrite_of_none (h : k.account = none) : MayWrite a k := by
  intro userId huser
  rw [h] at huser
  cases huser

theorem mayWrite_of_user (h : k.account = some userId) (huser : a.userId = some userId)
    (hstage : a.stage.writesAccount = true) : MayWrite a k := by
  intro u hu
  rw [h] at hu
  cases hu
  exact ⟨huser, hstage⟩

theorem proceed_command :
    Command w a (a.proceed settings w verified).1 (a.proceed settings w verified).2 := by
  unfold LoginAttempt.proceed
  cases hstage : a.stage with
  | checkingAccount => exact .reads (opened_eq_none a (by simp [hstage]) (by simp [hstage]))
  | checkingIp accountLocked =>
      have hnone := opened_eq_none a (by simp [hstage]) (by simp [hstage])
      dsimp only
      split
      · exact .reads hnone
      · split <;> exact .reads hnone
  | verifying =>
      have hnone := opened_eq_none a (by simp [hstage]) (by simp [hstage])
      dsimp only
      split <;> exact .reads hnone
  | countingIp =>
      apply Command.counts _ rfl (mayWrite_of_none a rfl)
        (opened_eq_none a (by simp [hstage]) (by simp [hstage]))
      intro hlive
      rw [counted_eq_one w hlive]
      rfl
  | expiringIp count =>
      apply Command.expires _ _ rfl (mayWrite_of_none a rfl)
      unfold LoginAttempt.opened
      rw [hstage]
  | probingIp =>
      have hnone := opened_eq_none a (by simp [hstage]) (by simp [hstage])
      dsimp only
      split <;> exact .reads hnone
  | lockingIp =>
      exact .locks _ _ rfl (mayWrite_of_none a rfl)
        (opened_eq_none a (by simp [hstage]) (by simp [hstage])) rfl
  | countingAccount =>
      have hnone := opened_eq_none a (by simp [hstage]) (by simp [hstage])
      cases huser : a.userId with
      | none => exact .reads hnone
      | some u =>
          apply Command.counts _ rfl (mayWrite_of_user a rfl huser (by rw [hstage]; rfl)) hnone
          intro hlive
          unfold LoginAttempt.opened
          dsimp only
          rw [counted_eq_one w hlive, if_pos rfl, huser]
          rfl
  | expiringAccount count =>
      cases huser : a.userId with
      | none =>
          apply Command.reads
          unfold LoginAttempt.opened
          rw [hstage, huser]
          rfl
      | some u =>
          apply Command.expires _ _ rfl (mayWrite_of_user a rfl huser (by rw [hstage]; rfl))
          unfold LoginAttempt.opened
          rw [hstage, huser]
          rfl
  | probingAccount =>
      have hnone := opened_eq_none a (by simp [hstage]) (by simp [hstage])
      cases a.userId with
      | none => exact .reads hnone
      | some u => dsimp only; split <;> exact .reads hnone
  | lockingAccount =>
      have hnone := opened_eq_none a (by simp [hstage]) (by simp [hstage])
      cases huser : a.userId with
      | none => exact .reads hnone
      | some u =>
          exact .locks _ _ rfl (mayWrite_of_user a rfl huser (by rw [hstage]; rfl)) hnone rfl
  | clearing =>
      have hnone := opened_eq_none a (by simp [hstage]) (by simp [hstage])
      cases huser : a.userId with
      | none => exact .reads hnone
      | some u => exact .clears _ rfl (mayWrite_of_user a rfl huser (by rw [hstage]; rfl)) hnone
  | finished => exact .reads (opened_eq_none a (by simp [hstage]) (by simp [hstage]))

variable {w a}

theorem Command.keys_eq (h : Command w a keys stage) (hnot : ¬ MayWrite a k) :
    keys k = w.keys k := by
  have hne : ∀ j, MayWrite a j → k ≠ j := by
    intro j hj hkj
    rw [hkj] at hnot
    exact hnot hj
  cases h with
  | reads _ => rfl
  | counts j _ hwrite => exact ExpiringKeys.incr_ne _ _ (hne j hwrite)
  | expires j ttl _ hwrite => exact ExpiringKeys.expire_ne _ _ _ (hne j hwrite)
  | locks j e _ hwrite => exact ExpiringKeys.put_ne _ _ (hne j hwrite)
  | clears j _ hwrite => exact ExpiringKeys.del_ne _ (hne j hwrite)

/-- A counter without an expiry has just been opened by the attempt, or was without one, and
is not the one that the attempt has opened before. -/
theorem Command.opened (h : Command w a keys stage) (hk : k.isCounter = true)
    (he : keys k = some e) (hends : e.expiresAt = none) :
    ({ a with stage := stage } : LoginAttempt).opened = some k ∨
      a.opened ≠ some k ∧ ∃ old, w.keys k = some old ∧ old.expiresAt = none := by
  cases h with
  | reads hopened =>
      right
      rw [hopened]
      exact ⟨nofun, e, he, hends⟩
  | counts j _ _ hopened hopens =>
      rcases ExpiringKeys.of_incr he hends with ⟨rfl, hlive⟩ | hold
      · exact .inl (hopens hlive)
      · right
        rw [hopened]
        exact ⟨nofun, hold⟩
  | expires j ttl _ _ hopened =>
      right
      have hkj : k ≠ j := by
        rintro rfl
        have hsome := ExpiringKeys.expire_self_isSome he
        rw [hends] at hsome
        cases hsome
      rw [ExpiringKeys.expire_ne _ _ _ hkj] at he
      rw [hopened]
      exact ⟨fun hjk => hkj (Option.some.inj hjk).symm, e, he, hends⟩
  | locks j lock hj _ hopened =>
      right
      have hkj : k ≠ j := by
        rintro rfl
        rw [hk] at hj
        cases hj
      rw [ExpiringKeys.put_ne _ _ hkj] at he
      rw [hopened]
      exact ⟨nofun, e, he, hends⟩
  | clears j _ _ hopened =>
      right
      rw [hopened]
      exact ⟨nofun, e, ExpiringKeys.of_del he, hends⟩

theorem Command.lock_isSome (h : Command w a keys stage) (hk : k.isCounter = false)
    (hlocks : ∀ e, w.keys k = some e → e.expiresAt.isSome = true) (he : keys k = some e) :
    e.expiresAt.isSome = true := by
  have hne : ∀ j, LoginKey.isCounter j = true → k ≠ j := by
    intro j hj hkj
    rw [hkj, hj] at hk
    cases hk
  cases h with
  | reads _ => exact hlocks e he
  | counts j hj =>
      rw [ExpiringKeys.incr_ne _ _ (hne j hj)] at he
      exact hlocks e he
  | expires j ttl hj =>
      rw [ExpiringKeys.expire_ne _ _ _ (hne j hj)] at he
      exact hlocks e he
  | locks j lock _ _ _ hends =>
      by_cases hkj : k = j
      · subst hkj
        rw [ExpiringKeys.put_self] at he
        cases he
        exact hends
      · rw [ExpiringKeys.put_ne _ _ hkj] at he
        exact hlocks e he
  | clears j hj => exact hlocks e (ExpiringKeys.of_del he)

variable (w a)

/-- Before the check of its account, ahead of the counter, or when it is over, an attempt comes
to no stage behind the counter, and does not begin to be ahead. -/
theorem proceed_quiet (hchecking : a.stage ≠ .checkingAccount)
    (hbehind : a.stage.isBehind = false) (hcounting : a.stage ≠ .countingAccount) :
    (a.proceed settings w verified).2.isBehind = false ∧
      ((a.proceed settings w verified).2.isAhead = true → a.stage.isAhead = true) := by
  have htoAccount : a.toAccount.isBehind = false := by
    unfold LoginAttempt.toAccount
    split <;> rfl
  have hafterIp : ∀ count, (a.afterIp settings count).isBehind = false := by
    intro count
    unfold LoginAttempt.afterIp
    split
    · rfl
    · exact htoAccount
  unfold LoginAttempt.proceed
  cases hstage : a.stage with
  | checkingAccount => exact absurd hstage hchecking
  | checkingIp accountLocked =>
      cases accountLocked with
      | true => exact ⟨rfl, fun h => h⟩
      | false =>
          refine ⟨?_, fun _ => rfl⟩
          dsimp only
          split
          · rfl
          · split <;> rfl
  | verifying =>
      refine ⟨?_, fun _ => rfl⟩
      dsimp only
      split <;> rfl
  | countingIp =>
      refine ⟨?_, fun _ => rfl⟩
      dsimp only
      split
      · rfl
      · exact hafterIp _
  | expiringIp count => exact ⟨hafterIp count, fun _ => rfl⟩
  | probingIp =>
      refine ⟨?_, fun _ => rfl⟩
      dsimp only
      split
      · exact htoAccount
      · rfl
  | lockingIp => exact ⟨htoAccount, fun _ => rfl⟩
  | countingAccount => exact absurd hstage hcounting
  | expiringAccount count =>
      rw [hstage] at hbehind
      cases hbehind
  | probingAccount =>
      rw [hstage] at hbehind
      cases hbehind
  | lockingAccount =>
      rw [hstage] at hbehind
      cases hbehind
  | clearing =>
      refine ⟨?_, fun _ => rfl⟩
      cases a.userId <;> rfl
  | finished => exact ⟨rfl, fun h => h⟩

end Proceed

/-! ## The invariant of a run -/

structure Sound (settings : LoginSettings) (w : LoginWorld) : Prop where
  fresh : ∀ i a, w.attempts i = some a → i < w.started
  accounts : ∀ userId, AccountSound settings w userId
  opened : ∀ k, k.isCounter = true → ∀ e, w.keys k = some e → e.expiresAt = none →
    ∃ i a, w.attempts i = some a ∧ a.opened = some k
  locks : ∀ k, k.isCounter = false → ∀ e, w.keys k = some e → e.expiresAt.isSome = true

section Run

variable {settings : LoginSettings} {w : LoginWorld}

theorem sound_start : Sound settings .start where
  fresh _ _ h := by cases h
  opened _ _ _ h := by cases h
  locks _ _ _ h := by cases h
  accounts userId :=
    { total := Nat.zero_le _
      lone := fun htwo => absurd htwo (by show ¬ 2 ≤ 0; omega)
      locked := fun _ h => by cases h
      small := fun _ _ _ h => by cases h
      reached := fun _ hmax => absurd (show settings.accountMaxAttempts ≤ 0 from hmax)
        (Nat.not_le.mpr settings.accountMaxAttempts_pos)
      ends := fun _ _ h => by cases h }

theorem Sound.attempt (h : Sound settings w) (user : Option Nat) (ip : Nat) :
    Sound settings (step settings w (.attempt user ip)) := by
  have hold : ∀ {j b}, w.attempts j = some b →
      (step settings w (.attempt user ip)).attempts j = some b := by
    intro j b hb
    have hj : j ≠ w.started := Nat.ne_of_lt (h.fresh j b hb)
    exact (if_neg hj).trans hb
  refine ⟨?_, ?_, ?_, h.locks⟩
  · intro j b hb
    rcases of_setAttempt hb with ⟨rfl, -⟩ | ⟨-, hb⟩
    · exact Nat.lt_succ_self _
    · exact Nat.lt_succ_of_lt (h.fresh j b hb)
  · intro userId
    have hcount : ∀ kind : Stage → Bool, kind .checkingAccount = false →
        attemptsAt (step settings w (.attempt user ip)) kind userId = attemptsAt w kind userId := by
      intro kind hkind
      apply attemptsAt_started kind userId rfl rfl
      unfold isAt
      rw [Option.any_some, hkind, Bool.and_false]
    have hahead := hcount Stage.isAhead rfl
    have hunder := hcount Stage.isUnderWay rfl
    have hload : load (step settings w (.attempt user ip)) userId = load w userId := by
      unfold load
      rw [hahead]
      rfl
    have haccount := h.accounts userId
    apply haccount.of_load (Nat.le_of_eq hload) (Nat.le_of_eq hunder)
    · intro lock hlock hpos
      rw [hunder] at hpos
      exact haccount.locked lock hlock hpos
    · intro j b count hb huser hstage hcount
      rcases of_setAttempt hb with ⟨-, hself⟩ | ⟨-, hb⟩
      · cases hself
        cases hstage
      · exact haccount.small j b count hb huser hstage hcount
    · intro hzero hmax
      rw [hunder] at hzero
      exact haccount.reached hzero hmax
    · exact haccount.ends
  · intro k hk e he hends
    obtain ⟨j, b, hb, hopened⟩ := h.opened k hk e he hends
    exact ⟨j, b, hold hb, hopened⟩

theorem Sound.crash (h : Sound settings w) {i : Nat} (hcareful : Careful settings w (.crash i)) :
    Sound settings (step settings w (.crash i)) := by
  cases ha : w.attempts i with
  | none =>
      have hsame : step settings w (.crash i) = w := by
        have hattempts : setAttempt w.attempts i none = w.attempts := by
          funext j
          unfold setAttempt
          split
          · rw [‹j = i›, ha]
          · rfl
        show ({ w with attempts := setAttempt w.attempts i none } : LoginWorld) = w
        rw [hattempts]
      rw [hsame]
      exact h
  | some a =>
      have hrecording := hcareful a ha
      have hbehind : a.stage.isBehind = false := by
        unfold Stage.isRecording at hrecording
        exact (Bool.or_eq_false_iff.mp hrecording).2
      have hopened : a.opened = none := by
        apply opened_eq_none
        · intro count hstage
          rw [hstage] at hrecording
          cases hrecording
        · intro count hstage
          rw [hstage] at hrecording
          cases hrecording
      refine ⟨?_, ?_, ?_, h.locks⟩
      · intro j b hb
        rcases of_setAttempt hb with ⟨-, hself⟩ | ⟨-, hb⟩
        · cases hself
        · exact h.fresh j b hb
      · intro userId
        exact (h.accounts userId).quiet (h.fresh i a ha) ha rfl rfl rfl rfl rfl
          (fun _ => hbehind) (fun _ hb => by cases hb)
      · intro k hk e he hends
        obtain ⟨j, b, hb, hk'⟩ := h.opened k hk e he hends
        refine ⟨j, b, (if_neg ?_).trans hb, hk'⟩
        rintro rfl
        rw [ha] at hb
        cases hb
        rw [hopened] at hk'
        cases hk'

theorem Sound.pass (h : Sound settings w) (d : Nat) : Sound settings (step settings w (.pass d)) := by
  have hlive : ∀ {k e}, w.keys.live (w.now + d) k = some e → w.keys.live w.now k = some e :=
    ExpiringKeys.live_mono (Nat.le_add_right _ _)
  refine ⟨h.fresh, ?_, h.opened, h.locks⟩
  intro userId
  have haccount := h.accounts userId
  have hfailures : failures (step settings w (.pass d)) (.accountFail userId) ≤
      failures w (.accountFail userId) := by
    rcases Nat.eq_zero_or_pos (failures (step settings w (.pass d)) (.accountFail userId)) with
      hzero | hpos
    · omega
    · obtain ⟨e, he, hvalue⟩ := live_of_failures hpos
      rw [← hvalue]
      unfold failures
      rw [hlive he]
      exact Nat.le_refl _
  have hload : load (step settings w (.pass d)) userId ≤ load w userId := by
    unfold load
    exact Nat.add_le_add_right hfailures _
  apply haccount.of_load hload (Nat.le_refl _)
  · intro lock hlock hpos
    exact haccount.locked lock (hlive hlock) hpos
  · exact haccount.small
  · intro hzero hmax
    obtain ⟨counter, lock, t, t', hcounter, ht, hlock⟩ :=
      haccount.reached hzero (Nat.le_trans hmax hfailures)
    obtain ⟨e, he, -⟩ := live_of_failures (Nat.lt_of_lt_of_le settings.accountMaxAttempts_pos hmax)
    have hsame := hlive he
    rw [hcounter] at hsame
    cases hsame
    exact ⟨counter, lock, t, t', he, ht, hlock⟩
  · intro e t he ht
    have hle := haccount.ends e t he ht
    show t ≤ w.now + d + _
    omega

theorem step_advance {i : Nat} (verified : Bool) (ha : w.attempts i = some a) :
    step settings w (.advance i verified) =
      { w with
        keys := (a.proceed settings w verified).1
        attempts := setAttempt w.attempts i
          (some { a with stage := (a.proceed settings w verified).2 }) } := by
  unfold step
  dsimp only
  rw [ha]

theorem Sound.account (h : Sound settings w) {i userId : Nat} {verified : Bool}
    (hcareful : Careful settings w (.advance i verified)) (ha : w.attempts i = some a)
    (huser : a.userId = some userId) :
    AccountSound settings (step settings w (.advance i verified)) userId := by
  rw [step_advance verified ha]
  have haccount := h.accounts userId
  have hmoved : ∀ keys stage, Moved w { w with
      keys := keys, attempts := setAttempt w.attempts i (some { a with stage := stage }) }
      userId i a stage := fun _ _ => ⟨h.fresh i a ha, ha, huser, rfl, rfl, rfl⟩
  have hquiet : a.stage ≠ .checkingAccount → a.stage.isBehind = false →
      a.stage ≠ .countingAccount → a.stage.writesAccount = false →
      AccountSound settings { w with
        keys := (a.proceed settings w verified).1
        attempts := setAttempt w.attempts i
          (some { a with stage := (a.proceed settings w verified).2 }) } userId := by
    intro hchecking hbehind hcounting hwrites
    have hnot : ∀ k, LoginKey.account k = some userId → ¬ MayWrite a k := by
      intro k hk hwrite
      rw [(hwrite userId hk).2] at hwrites
      cases hwrites
    obtain ⟨hnew, hahead⟩ := proceed_quiet settings w a verified hchecking hbehind hcounting
    have hcommand := proceed_command settings w a verified
    refine AccountSound.quiet haccount (h.fresh i a ha) ha rfl rfl rfl ?_ ?_ ?_ ?_
    · exact hcommand.keys_eq (hnot _ rfl)
    · exact hcommand.keys_eq (hnot _ rfl)
    · exact fun _ => hbehind
    · intro b hb _
      cases hb
      exact ⟨hnew, fun hstage => ⟨huser, hahead hstage⟩⟩
  have hproceed : ∀ {keys stage}, a.proceed settings w verified = (keys, stage) →
      AccountSound settings { w with
        keys := keys, attempts := setAttempt w.attempts i (some { a with stage := stage }) } userId →
      AccountSound settings { w with
        keys := (a.proceed settings w verified).1
        attempts := setAttempt w.attempts i
          (some { a with stage := (a.proceed settings w verified).2 }) } userId := by
    intro keys stage hsame hgoal
    rw [hsame]
    exact hgoal
  cases hstage : a.stage with
  | checkingAccount =>
      have hsame : a.proceed settings w verified =
          (w.keys, .checkingIp (w.keys.live w.now (.accountLock userId)).isSome) := by
        unfold LoginAttempt.proceed
        rw [hstage, huser]
        rfl
      apply hproceed hsame
      cases hlock : w.keys.live w.now (.accountLock userId) with
      | none =>
          exact haccount.entered h.fresh (hmoved _ _) hstage rfl hlock
            (hcareful a ha hstage userId huser hlock)
      | some lock =>
          refine AccountSound.quiet haccount (h.fresh i a ha) ha rfl rfl rfl rfl rfl ?_ ?_
          · intro _
            rw [hstage]
            rfl
          · intro b hb _
            cases hb
            exact ⟨rfl, fun hahead => by cases hahead⟩
  | countingAccount =>
      apply hproceed
        (by
          unfold LoginAttempt.proceed
          rw [hstage, huser])
      exact haccount.counted (hmoved _ _) hstage rfl
  | expiringAccount count =>
      apply hproceed (by unfold LoginAttempt.proceed; rw [hstage, huser])
      exact haccount.expired (hmoved _ _) hstage rfl
  | probingAccount =>
      cases hlock : w.keys.live w.now (.accountLock userId) with
      | none =>
          have hsame : a.proceed settings w verified = (w.keys, .lockingAccount) := by
            unfold LoginAttempt.proceed
            rw [hstage, huser]
            dsimp only
            rw [hlock]
            rfl
          apply hproceed hsame
          exact haccount.probed (hmoved _ _) hstage rfl (.inl rfl)
      | some lock =>
          have hsame : a.proceed settings w verified = (w.keys, .finished) := by
            unfold LoginAttempt.proceed
            rw [hstage, huser]
            dsimp only
            rw [hlock]
            rfl
          apply hproceed hsame
          exact haccount.probed (hmoved _ _) hstage rfl (.inr ⟨rfl, lock, hlock⟩)
  | lockingAccount =>
      apply hproceed (by unfold LoginAttempt.proceed; rw [hstage, huser])
      exact haccount.lockSet (h.opened _ rfl) h.fresh (hmoved _ _) hstage rfl
  | clearing =>
      apply hproceed (by unfold LoginAttempt.proceed; rw [hstage, huser])
      exact haccount.cleared (hmoved _ _) hstage rfl
  | _ =>
      exact hquiet (by simp [hstage]) (by rw [hstage]; rfl) (by simp [hstage]) (by rw [hstage]; rfl)

theorem Sound.advance (h : Sound settings w) {i : Nat} {verified : Bool}
    (hcareful : Careful settings w (.advance i verified)) :
    Sound settings (step settings w (.advance i verified)) := by
  cases ha : w.attempts i with
  | none =>
      have hsame : step settings w (.advance i verified) = w := by
        unfold step
        dsimp only
        rw [ha]
      rw [hsame]
      exact h
  | some a =>
      have hcommand := proceed_command settings w a verified
      have haccount : ∀ userId, a.userId = some userId →
          AccountSound settings (step settings w (.advance i verified)) userId :=
        fun _ huser => h.account hcareful ha huser
      rw [step_advance verified ha] at haccount ⊢
      refine ⟨?_, ?_, ?_, ?_⟩
      · intro j b hb
        rcases of_setAttempt hb with ⟨rfl, -⟩ | ⟨-, hb⟩
        · exact h.fresh _ a ha
        · exact h.fresh j b hb
      · intro userId
        by_cases huser : a.userId = some userId
        · exact haccount userId huser
        · have hnot : ∀ k, LoginKey.account k = some userId → ¬ MayWrite a k := by
            intro k hk hwrite
            exact huser (hwrite userId hk).1
          refine AccountSound.quiet (h.accounts userId) (h.fresh i a ha) ha rfl rfl rfl ?_ ?_ ?_ ?_
          · exact hcommand.keys_eq (hnot _ rfl)
          · exact hcommand.keys_eq (hnot _ rfl)
          · exact fun hsame => absurd hsame huser
          · intro b hb hsame
            cases hb
            exact absurd hsame huser
      · intro k hk e he hends
        rcases hcommand.opened hk he hends with hnew | ⟨hnot, old, hold, hends'⟩
        · exact ⟨i, _, if_pos rfl, hnew⟩
        · obtain ⟨j, b, hb, hopened⟩ := h.opened k hk old hold hends'
          refine ⟨j, b, (if_neg ?_).trans hb, hopened⟩
          rintro rfl
          rw [ha] at hb
          cases hb
          exact hnot hopened
      · intro k hk e he
        exact hcommand.lock_isSome hk (h.locks k hk) he

theorem sound_step {e : LoginEvent} (h : Sound settings w) (hcareful : Careful settings w e) :
    Sound settings (step settings w e) := by
  cases e with
  | attempt user ip => exact h.attempt user ip
  | advance i verified => exact h.advance hcareful
  | crash i => exact h.crash hcareful
  | pass d => exact h.pass d

theorem Sound.bounded (h : Sound settings w) : Bounded settings w := by
  intro userId
  have hle : attemptsAt w Stage.isUncounted userId ≤ attemptsAt w Stage.isAhead userId := by
    apply attemptsAt_mono
    intro s hs
    cases s <;> first | rfl | cases hs
  have htotal := (h.accounts userId).total
  unfold load at htotal
  unfold performed
  omega

theorem Sound.locksExpire (h : Sound settings w) : LocksExpire w := fun k hk e he =>
  h.locks k hk e (ExpiringKeys.live_eq_some.mp he).1

theorem Sound.countersExpire (h : Sound settings w) (hgap : NoGap w) : CountersExpire w := by
  intro k hk e he
  cases hends : e.expiresAt with
  | some t => rfl
  | none =>
      obtain ⟨i, a, ha, hopened⟩ := h.opened k hk e (ExpiringKeys.live_eq_some.mp he).1 hends
      rw [hgap i a ha] at hopened
      cases hopened

/-- Along a careful run the verifications of every account stay within the limit, and whatever
locks or counts has an expiry, but for the counters that are just being opened. -/
theorem attempts_bounded_and_expiring (settings : LoginSettings) (es : List LoginEvent)
    (h : Along (step settings) (Careful settings) .start es) :
    Bounded settings (es.foldl (step settings) .start) ∧
      LocksExpire (es.foldl (step settings) .start) ∧
      (NoGap (es.foldl (step settings) .start) →
        CountersExpire (es.foldl (step settings) .start)) := by
  have hsound : Sound settings (es.foldl (step settings) .start) :=
    h.induction sound_start fun _ _ hs hcareful => sound_step hs hcareful
  exact ⟨hsound.bounded, hsound.locksExpire, hsound.countersExpire⟩

/-- Three failures lock an account; addresses never reach their limit. -/
def threeFailures : LoginSettings where
  accountMaxAttempts := 3
  accountLockTime := 600
  ipMaxAttempts := 100
  ipLockTime := 600
  ipWindowTime := 3600
  accountMaxAttempts_pos := by decide
  accountLockTime_pos := by decide
  ipWindowTime_pos := by decide
  ipLockTime_pos := by decide

/-- The second attempt begins while the first is verified, and the third behind both of them; it
reaches the limit, and the fourth finds the lock. -/
def overlappingBelowLimit : List LoginEvent :=
  [.attempt (some 1) 7, .advance 0 false, .attempt (some 1) 7, .advance 1 false] ++
    List.replicate 6 (.advance 0 false) ++ List.replicate 4 (.advance 1 false) ++
    [.attempt (some 1) 8] ++ List.replicate 9 (.advance 2 false) ++
    [.attempt (some 1) 8, .advance 3 false, .pass 1]

theorem attempts_bounded_and_expiring_overlappingBelowLimit :
    Along (step threeFailures) (Careful threeFailures) .start overlappingBelowLimit ∧
      Bounded threeFailures (overlappingBelowLimit.foldl (step threeFailures) .start) ∧
      LocksExpire (overlappingBelowLimit.foldl (step threeFailures) .start) ∧
      (NoGap (overlappingBelowLimit.foldl (step threeFailures) .start) →
        CountersExpire (overlappingBelowLimit.foldl (step threeFailures) .start)) :=
  have h : Along (step threeFailures) (Careful threeFailures) .start overlappingBelowLimit := by
    decide +kernel
  ⟨h, attempts_bounded_and_expiring threeFailures overlappingBelowLimit h⟩

/-- Four attempts pass the check before any of them has counted its failure. -/
def overlappingAtLimit : List LoginEvent :=
  [0, 1, 2, 3].flatMap fun i =>
    [.attempt (some 1) 7, .advance i false, .advance i false, .advance i false]

/-- The process stops between the `INCR` of the account's counter and its `EXPIRE`. -/
def crashedBeforeExpire : List LoginEvent :=
  [.attempt (some 1) 7] ++ List.replicate 6 (.advance 0 false) ++ [.crash 0, .pass 1000000]

theorem limit_exceeded_and_counter_kept :
    ¬ Bounded threeFailures (overlappingAtLimit.foldl (step threeFailures) .start) ∧
      ¬ CountersExpire (crashedBeforeExpire.foldl (step threeFailures) .start) := by
  constructor
  · intro h
    have hfour : performed (overlappingAtLimit.foldl (step threeFailures) .start) 1 = 4 := by
      decide +kernel
    have hle := h 1
    rw [hfour] at hle
    exact absurd hle (by decide)
  · intro h
    have hlive : (crashedBeforeExpire.foldl (step threeFailures) .start).keys.live
        (crashedBeforeExpire.foldl (step threeFailures) .start).now (.accountFail 1) =
          some ⟨1, none⟩ := by
      decide +kernel
    exact absurd (h (.accountFail 1) rfl _ hlive) (by decide)

end Run

end LoginProtectionService

end Wbme.Auth

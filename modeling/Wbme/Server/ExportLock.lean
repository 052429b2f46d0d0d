import Mathlib.Logic.Function.Basic
import Wbme.Lib.ExpiringKeys

/-! # The lock of an export

A user has one export at a time, whichever service runs it. A request sets the user's lock to a
token of its own, with an expiry, and deletes it at the end only where its token still stands.
It looks at the clock before every batch of rows, counting from when it learnt of the lock.
-/

namespace Wbme.ExportLock

open Lib

/-- In milliseconds, like all times here. -/
def exportTimeoutMs : Nat := 120000

def lockTtlMs : Nat := exportTimeoutMs + 30000

/-- Redis sets the lock at `lockedAt`, and the request goes on at `started`. -/
structure ExportRequest where
  userId : Nat
  lockedAt : Nat
  started : Option Nat
  ended : Bool

/-- Locks by user, requests by token. -/
structure World where
  now : Nat
  locks : ExpiringKeys Nat Nat
  requests : Nat → Option ExportRequest

/-- A request that crashes has no events any more. -/
inductive ExportEvent
  | tick (ms : Nat)
  | acquire (token userId : Nat)
  | answer (token : Nat)
  | checkTimeout (token : Nat)
  | release (token : Nat)

def World.acquire (w : World) (token userId : Nat) : World where
  now := w.now
  locks := w.locks.put userId ⟨token, some (w.now + lockTtlMs)⟩
  requests := Function.update w.requests token (some ⟨userId, w.now, none, false⟩)

def World.move (w : World) (token : Nat) (f : ExportRequest → ExportRequest) : World where
  now := w.now
  locks := w.locks
  requests := Function.update w.requests token ((w.requests token).map f)

def World.release (w : World) (token userId : Nat) : World :=
  if (w.locks.live w.now userId).any (·.value == token) then
    { w with locks := w.locks.del userId } else w

/-- Tokens are random, so a token that is taken is not drawn again. -/
def step (w : World) : ExportEvent → World
  | .tick ms => { w with now := w.now + ms }
  | .acquire token userId =>
      if (w.requests token).isSome || (w.locks.live w.now userId).isSome then w
      else w.acquire token userId
  | .answer token => w.move token fun r => { r with started := some (r.started.getD w.now) }
  | .checkTimeout token => w.move token fun r =>
      { r with ended := r.ended || r.started.any (· + exportTimeoutMs < w.now) }
  | .release token =>
      match w.requests token with
      | none => w
      | some r => (w.move token fun r => { r with ended := true }).release token r.userId

def run (events : List ExportEvent) : World :=
  events.foldl step ⟨0, .empty, fun _ => none⟩

/-- The check before a batch passes, of a request that learnt of its lock within 30 seconds. -/
def ExportRequest.MayRead (r : ExportRequest) (now : Nat) : Prop :=
  r.ended = false ∧ ∃ t, r.started = some t ∧ now ≤ t + exportTimeoutMs ∧ t < r.lockedAt + 30000

/-- A request that may read has the lock, is the only one of its user, and keeps others out. -/
structure Exclusive (w : World) : Prop where
  holds : ∀ token r, w.requests token = some r → r.MayRead w.now →
    ∃ e, w.locks.live w.now r.userId = some e ∧ e.value = token
  alone : ∀ token token' r r', w.requests token = some r → w.requests token' = some r' →
    r.MayRead w.now → r'.MayRead w.now → r.userId = r'.userId → token = token'
  refused : ∀ token r, w.requests token = some r → r.MayRead w.now →
    ∀ token', step w (.acquire token' r.userId) = w

/-! ## Until it expires, a lock is its request's -/

/-- The lock of a request that is not over stands until its expiry. -/
def Held (w : World) : Prop :=
  ∀ token r, w.requests token = some r → r.ended = false → w.now < r.lockedAt + lockTtlMs →
    w.locks r.userId = some ⟨token, some (r.lockedAt + lockTtlMs)⟩

namespace Held

variable {w : World}

theorem live (h : Held w) {token : Nat} {r : ExportRequest} (hr : w.requests token = some r)
    (hended : r.ended = false) (hnow : w.now < r.lockedAt + lockTtlMs) :
    w.locks.live w.now r.userId = some ⟨token, some (r.lockedAt + lockTtlMs)⟩ := by
  rw [ExpiringKeys.live_eq_some]
  refine ⟨h token r hr hended hnow, ?_⟩
  intro t ht
  cases ht
  exact hnow

theorem move (h : Held w) (token : Nat) {f : ExportRequest → ExportRequest}
    (hf : ∀ r, (f r).userId = r.userId ∧ (f r).lockedAt = r.lockedAt ∧
      ((f r).ended = false → r.ended = false)) : Held (w.move token f) := by
  intro t r hr hended hnow
  by_cases ht : t = token
  · subst ht
    obtain ⟨old, hold, rfl⟩ := Option.map_eq_some_iff.mp
      ((Function.update_self t _ w.requests).symm.trans hr)
    obtain ⟨huser, hlocked, hopen⟩ := hf old
    rw [huser, hlocked]
    rw [hlocked] at hnow
    exact h t old hold (hopen hended) hnow
  · exact h t r ((Function.update_of_ne ht _ w.requests).symm.trans hr) hended hnow

theorem acquire (h : Held w) (token : Nat) {userId : Nat}
    (hfree : w.locks.live w.now userId = none) : Held (w.acquire token userId) := by
  intro t r hr hended hnow
  by_cases ht : t = token
  · subst ht
    cases (Function.update_self t _ w.requests).symm.trans hr
    exact ExpiringKeys.put_self ..
  · have hold := (Function.update_of_ne ht _ w.requests).symm.trans hr
    have hne : r.userId ≠ userId := by
      intro heq
      have hlive := h.live hold hended hnow
      rw [heq, hfree] at hlive
      cases hlive
    exact (ExpiringKeys.put_ne _ _ hne).trans (h t r hold hended hnow)

/-- The lock that a request deletes has its token, so it is not that of an open request. -/
theorem release (h : Held w) {token : Nat} (hended : ∀ r ∈ w.requests token, r.ended = true)
    (userId : Nat) : Held (w.release token userId) := by
  unfold World.release
  split
  · next hown =>
      intro t r hr hopen hnow
      have hne : r.userId ≠ userId := by
        intro heq
        rw [← heq, h.live hr hopen hnow] at hown
        have htoken : t = token := by simpa using hown
        rw [hended r (htoken ▸ hr)] at hopen
        cases hopen
      exact (ExpiringKeys.del_ne _ hne).trans (h t r hr hopen hnow)
  · exact h

theorem step (h : Held w) (e : ExportEvent) : Held (step w e) := by
  cases e with
  | tick ms =>
      intro token r hr hended hnow
      exact h token r hr hended (Nat.lt_of_le_of_lt (Nat.le_add_right _ ms) hnow)
  | acquire token userId =>
      simp only [ExportLock.step]
      split
      · exact h
      · next hfree =>
          rw [Bool.not_eq_true, Bool.or_eq_false_iff] at hfree
          exact h.acquire token (Option.isNone_iff_eq_none.mp (by simpa using hfree.2))
  | answer token => exact h.move token fun r => ⟨rfl, rfl, id⟩
  | checkTimeout token =>
      exact h.move token fun r => ⟨rfl, rfl, fun hended => (Bool.or_eq_false_iff.mp hended).1⟩
  | release token =>
      simp only [ExportLock.step]
      split
      · exact h
      · have hmove : Held (w.move token fun r => { r with ended := true }) :=
          h.move token fun r => ⟨rfl, rfl, Bool.noConfusion⟩
        refine hmove.release ?_ _
        intro r hr
        obtain ⟨old, -, rfl⟩ := Option.map_eq_some_iff.mp
          ((Function.update_self token _ w.requests).symm.trans hr)
        rfl

theorem run (events : List ExportEvent) : Held (run events) := by
  have hrun : ∀ w, Held w → Held (events.foldl ExportLock.step w) := by
    induction events with
    | nil => exact fun _ h => h
    | cons e events ih => exact fun w h => ih _ (h.step e)
  apply hrun
  intro token r hr
  cases hr

end Held

/-- Whatever requests, answers, delays and crashes there are, the exports of a user exclude one
another. -/
theorem exclusive_of_run (events : List ExportEvent) : Exclusive (run events) := by
  have holds : ∀ token r, (run events).requests token = some r → r.MayRead (run events).now →
      ∃ e, (run events).locks.live (run events).now r.userId = some e ∧ e.value = token := by
    intro token r hr hread
    obtain ⟨hended, t, -, hcheck, hprompt⟩ := hread
    refine ⟨_, (Held.run events).live hr hended ?_, rfl⟩
    unfold lockTtlMs
    omega
  refine ⟨holds, ?_, ?_⟩
  · intro token token' r r' hr hr' hread hread' huser
    obtain ⟨e, he, hvalue⟩ := holds token r hr hread
    obtain ⟨e', he', hvalue'⟩ := holds token' r' hr' hread'
    rw [huser, he'] at he
    cases he
    exact hvalue.symm.trans hvalue'
  · intro token r hr hread token'
    obtain ⟨e, he, -⟩ := holds token r hr hread
    exact if_pos (by rw [he]; simp)

end Wbme.ExportLock

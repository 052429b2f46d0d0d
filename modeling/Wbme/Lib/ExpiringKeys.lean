import Mathlib.Logic.Basic

/-! # Keys that expire

A cache maps keys to entries. An entry may carry the time from which on it is gone; until then
it is alive. Nothing has to be done for an entry to go: it is not seen any more, and no command
brings it back but one that writes it anew.
-/

namespace Wbme.Lib

structure CacheEntry (α : Type) where
  value : α
  expiresAt : Option Nat
deriving DecidableEq

abbrev ExpiringKeys (κ α : Type) := κ → Option (CacheEntry α)

namespace ExpiringKeys

variable {κ α : Type}

def empty : ExpiringKeys κ α := fun _ => none

/-- The entry of a key, unless its time is over. -/
def live (m : ExpiringKeys κ α) (now : Nat) (k : κ) : Option (CacheEntry α) :=
  (m k).filter fun e => e.expiresAt.all fun t => now < t

section Live

variable {m : ExpiringKeys κ α} {now : Nat} {k : κ} {e : CacheEntry α}

theorem live_eq_some : m.live now k = some e ↔
    m k = some e ∧ ∀ t, e.expiresAt = some t → now < t := by
  unfold live
  rw [Option.filter_eq_some_iff]
  cases e.expiresAt with
  | none => simp
  | some t => simp

/-- An entry that is gone stays gone. -/
theorem live_mono {later : Nat} (hle : now ≤ later) (h : m.live later k = some e) :
    m.live now k = some e := by
  rw [live_eq_some] at h ⊢
  exact ⟨h.1, fun t ht => Nat.lt_of_le_of_lt hle (h.2 t ht)⟩

theorem live_congr {m' : ExpiringKeys κ α} (h : m' k = m k) : m'.live now k = m.live now k := by
  unfold live
  rw [h]

end Live

/-! ## Commands -/

variable [DecidableEq κ]

/-- `SET`, with an expiry or without. -/
def put (m : ExpiringKeys κ α) (k : κ) (e : CacheEntry α) : ExpiringKeys κ α :=
  fun j => if j = k then some e else m j

/-- `DEL`. -/
def del (m : ExpiringKeys κ α) (k : κ) : ExpiringKeys κ α := fun j => if j = k then none else m j

/-- `PEXPIRE`: a key that is not alive stays as it is. -/
def expire (m : ExpiringKeys κ α) (now : Nat) (k : κ) (ttl : Nat) : ExpiringKeys κ α :=
  match m.live now k with
  | none => m
  | some e => m.put k { e with expiresAt := some (now + ttl) }

/-- `INCR`: a key that is not alive begins at one, without an expiry. -/
def incr (m : ExpiringKeys κ Nat) (now : Nat) (k : κ) : ExpiringKeys κ Nat :=
  match m.live now k with
  | none => m.put k ⟨1, none⟩
  | some e => m.put k { e with value := e.value + 1 }

/-! ## What the commands do to a key -/

variable {m : ExpiringKeys κ α} {now : Nat} {k j : κ} {e : CacheEntry α}

@[simp] theorem put_self (m : ExpiringKeys κ α) (k : κ) (e : CacheEntry α) : m.put k e k = some e :=
  if_pos rfl

theorem put_ne (m : ExpiringKeys κ α) (e : CacheEntry α) (h : j ≠ k) : m.put k e j = m j := if_neg h

@[simp] theorem del_self (m : ExpiringKeys κ α) (k : κ) : m.del k k = none := if_pos rfl

theorem del_ne (m : ExpiringKeys κ α) (h : j ≠ k) : m.del k j = m j := if_neg h

theorem of_del (h : m.del k j = some e) : m j = some e := by
  unfold del at h
  split at h
  · cases h
  · exact h

theorem expire_ne (m : ExpiringKeys κ α) (now ttl : Nat) (h : j ≠ k) :
    m.expire now k ttl j = m j := by
  unfold expire
  cases m.live now k with
  | none => rfl
  | some e => exact put_ne m _ h

/-- A key keeps its value over `PEXPIRE`, and has the new expiry only if it was alive. -/
theorem of_expire {ttl : Nat} (h : m.expire now k ttl j = some e) :
    m j = some e ∨ j = k ∧ e.expiresAt = some (now + ttl) ∧
      ∃ old, m.live now k = some old ∧ old.value = e.value := by
  unfold expire at h
  cases hlive : m.live now k with
  | none =>
      rw [hlive] at h
      exact .inl h
  | some old =>
      rw [hlive] at h
      by_cases hjk : j = k
      · subst hjk
        dsimp only at h
        rw [put_self] at h
        cases h
        exact .inr ⟨rfl, rfl, old, rfl, rfl⟩
      · left
        rw [← h]
        exact (put_ne m _ hjk).symm

theorem incr_ne (m : ExpiringKeys κ Nat) (now : Nat) (h : j ≠ k) : m.incr now k j = m j := by
  unfold incr
  cases m.live now k with
  | none => exact put_ne m _ h
  | some e => exact put_ne m _ h

/-- The entry that a counter has after `INCR`. -/
theorem incr_self (m : ExpiringKeys κ Nat) (now : Nat) (k : κ) :
    m.incr now k k = some (match m.live now k with
      | none => ⟨1, none⟩
      | some e => ⟨e.value + 1, e.expiresAt⟩) := by
  unfold incr
  cases m.live now k with
  | none => exact put_self m k _
  | some e => exact put_self m k _

/-- No entry is without an expiry behind `PEXPIRE`. -/
theorem expire_self_isSome {ttl : Nat} (h : m.expire now k ttl k = some e) :
    e.expiresAt.isSome = true := by
  rcases of_expire h with hsame | ⟨-, hnew, -⟩
  · cases hends : e.expiresAt with
    | some t => rfl
    | none =>
        have hlive : m.live now k = some e := by
          rw [live_eq_some]
          refine ⟨hsame, ?_⟩
          intro t ht
          rw [hends] at ht
          cases ht
        unfold expire at h
        rw [hlive] at h
        dsimp only at h
        rw [put_self] at h
        rw [← Option.some.inj h] at hends
        cases hends
  · rw [hnew]
    rfl

/-- An entry without an expiry behind `INCR` has begun with it, or had none before. -/
theorem of_incr {m : ExpiringKeys κ Nat} {e : CacheEntry Nat} (h : m.incr now k j = some e)
    (hends : e.expiresAt = none) :
    j = k ∧ m.live now k = none ∨ ∃ old, m j = some old ∧ old.expiresAt = none := by
  by_cases hjk : j = k
  · subst hjk
    rw [incr_self] at h
    cases hlive : m.live now j with
    | none => exact .inl ⟨rfl, rfl⟩
    | some old =>
        rw [hlive] at h
        cases h
        exact .inr ⟨old, (live_eq_some.mp hlive).1, hends⟩
  · rw [incr_ne m now hjk] at h
    exact .inr ⟨e, h, hends⟩

/-! ## What is alive behind a command -/

theorem live_del_self (m : ExpiringKeys κ α) (now : Nat) (k : κ) : (m.del k).live now k = none := by
  unfold live
  rw [del_self]
  rfl

theorem live_put_self (h : ∀ t, e.expiresAt = some t → now < t) :
    (m.put k e).live now k = some e := live_eq_some.mpr ⟨put_self m k e, h⟩

/-- `PEXPIRE` changes nothing of what is alive but the expiry. -/
theorem live_expire_self {ttl : Nat} (httl : 0 < ttl) :
    (m.expire now k ttl).live now k =
      (m.live now k).map fun e => { e with expiresAt := some (now + ttl) } := by
  unfold expire
  cases hlive : m.live now k with
  | none => exact hlive
  | some e =>
      apply live_put_self
      intro t ht
      cases ht
      exact Nat.lt_add_of_pos_right httl

/-- `INCR` keeps the expiry. -/
theorem live_incr_self (m : ExpiringKeys κ Nat) (now : Nat) (k : κ) :
    (m.incr now k).live now k = some (match m.live now k with
      | none => ⟨1, none⟩
      | some e => ⟨e.value + 1, e.expiresAt⟩) := by
  rw [live_eq_some, incr_self]
  refine ⟨rfl, ?_⟩
  intro t ht
  cases hlive : m.live now k with
  | none =>
      rw [hlive] at ht
      cases ht
  | some e =>
      rw [hlive] at ht
      exact (live_eq_some.mp hlive).2 t ht

end ExpiringKeys

end Wbme.Lib

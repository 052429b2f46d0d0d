import Mathlib.Logic.Function.Basic
import Wbme.Lib.Along

/-! # First creations of an inventory item

`lockOrCreateItem` in transactions that run at the same time, seen at one key of the unique
index. A statement that fails aborts its transaction. A locking read waits for the version it
has found, an insert for a transaction that is creating or deleting the item.
-/

namespace Wbme.Asset.ItemCreation

open Lib

/-! ## Transactions at one key -/

/-- An item's id and its book quantity. -/
abbrev Item := Nat × Nat

/-- Where a transaction is: in other code, or at a statement of `lockOrCreateItem`. -/
inductive Phase where
  | business
  | reading
  /-- The locking read has found the item with this id under another transaction's lock. -/
  | waiting (id : Nat)
  | inserting
  /-- The insert has failed with `P2002`. -/
  | caught
  | returned (item : Item)
  | failed
deriving DecidableEq

namespace Phase

/-- No call is under way and the transaction can go on. -/
def isOpen : Phase → Bool
  | business | returned _ => true
  | _ => false

end Phase

/-- The committed item of the key. At most one transaction holds its row lock or is creating it,
and has a version of its own: none, if it has deleted the item. -/
structure ItemState where
  committed : Option Item
  holder : Option Nat
  pending : Option Item
  phase : Nat → Phase
  aborted : Nat → Bool
  nextId : Nat

namespace ItemState

def start (committed : Option Item) (nextId : Nat) : ItemState :=
  ⟨committed, none, none, fun _ => .business, fun _ => false, nextId⟩

/-- The item as a transaction sees it. -/
def view (s : ItemState) (t : Nat) : Option Item :=
  if s.holder = some t then s.pending else s.committed

def setPhase (s : ItemState) (t : Nat) (p : Phase) : ItemState :=
  { s with phase := Function.update s.phase t p }

/-- The transaction takes the row lock, with its version of the item. -/
def hold (s : ItemState) (t : Nat) (item : Option Item) : ItemState :=
  { s with holder := some t, pending := item }

/-- Another transaction holds the row. -/
def heldFrom (s : ItemState) (t : Nat) : Bool := s.holder.isSome && s.holder != some t

end ItemState

/-- Statements of `lockOrCreateItem`, and what other code does with the row: lock it, write a
quantity, clean the empty item up, and end the transaction. -/
inductive ItemEvent where
  | call (t : Nat)
  | read (t : Nat)
  | wake (t : Nat)
  | insert (t : Nat)
  | reread (t : Nat)
  | lock (t : Nat)
  | write (t qty : Nat)
  | cleanup (t : Nat)
  | commit (t : Nat)
  | rollback (t : Nat)

/-- One statement. One that has to wait, or is not the transaction's next, changes nothing. -/
def step (s : ItemState) : ItemEvent → ItemState
  | .call t => if (s.phase t).isOpen then s.setPhase t .reading else s
  | .read t =>
      if s.phase t = .reading then
        match s.view t with
        | some item =>
            if s.heldFrom t then s.setPhase t (.waiting item.1)
            else (s.hold t item).setPhase t (.returned item)
        | none => s.setPhase t .inserting
      else s
  | .wake t =>
      match s.phase t with
      | .waiting id =>
          if s.holder.isSome then s
          else
            match s.committed with
            | some item =>
                if item.1 = id then (s.hold t item).setPhase t (.returned item)
                else s.setPhase t .inserting
            | none => s.setPhase t .inserting
      | _ => s
  | .insert t =>
      if s.phase t = .inserting && !s.heldFrom t then
        match s.view t with
        | some _ => { s.setPhase t .caught with aborted := Function.update s.aborted t true }
        | none =>
            { (s.hold t (some (s.nextId, 0))).setPhase t (.returned (s.nextId, 0)) with
              nextId := s.nextId + 1 }
      else s
  | .reread t =>
      if s.phase t = .caught then
        if s.aborted t then s.setPhase t .failed
        else if s.heldFrom t then s
        else
          match s.view t with
          | some item => (s.hold t item).setPhase t (.returned item)
          | none => s.setPhase t .failed
      else s
  | .lock t =>
      if (s.phase t).isOpen && s.holder.isNone && s.committed.isSome then
        (s.hold t s.committed).setPhase t .business
      else s
  | .write t qty =>
      if (s.phase t).isOpen && s.holder = some t then
        (s.hold t (s.pending.map fun item => (item.1, qty))).setPhase t .business
      else s
  | .cleanup t =>
      if (s.phase t).isOpen && s.holder = some t && s.pending.any (fun item => item.2 == 0) then
        (s.hold t none).setPhase t .business
      else s
  | .commit t =>
      if (s.phase t).isOpen then
        { s.setPhase t .business with
          committed := s.view t
          holder := if s.holder = some t then none else s.holder }
      else s
  | .rollback t =>
      { s.setPhase t .business with
        holder := if s.holder = some t then none else s.holder
        aborted := Function.update s.aborted t false }

/-! ## What a call promises -/

/-- No call has failed, and one that has returned holds the row lock of the live item it has
returned, with the quantity it has returned. -/
def CallsReturn (s : ItemState) : Prop :=
  ∀ t, s.phase t ≠ .caught ∧ s.phase t ≠ .failed ∧
    ∀ item, s.phase t = .returned item → s.holder = some t ∧ s.pending = some item

/-- An insert that goes ahead meets no item: none of the key was committed since the call read. -/
def unmet (s : ItemState) : ItemEvent → Bool
  | .insert t => !(s.phase t = .inserting && !s.heldFrom t && (s.view t).isSome)
  | _ => true

variable {s s' : ItemState} {t : Nat} {e : ItemEvent} {events : List ItemEvent}

@[simp] theorem phase_setPhase (s : ItemState) (t : Nat) (p : Phase) :
    (s.setPhase t p).phase t = p := Function.update_self ..

theorem phase_setPhase_ne (s : ItemState) {t u : Nat} (p : Phase) (h : u ≠ t) :
    (s.setPhase t p).phase u = s.phase u := Function.update_of_ne h ..

/-- What one transaction owes: no failed call, and the lock on what its call has returned. -/
def Owes (s : ItemState) (t : Nat) : Prop :=
  s.phase t ≠ .caught ∧ s.phase t ≠ .failed ∧
    ∀ item, s.phase t = .returned item → s.holder = some t ∧ s.pending = some item

theorem CallsReturn.of_step (h : CallsReturn s) (hphase : ∀ u, u ≠ t → s'.phase u = s.phase u)
    (hframe : s.heldFrom t = true → s'.holder = s.holder ∧ s'.pending = s.pending)
    (ht : Owes s' t) : CallsReturn s' := by
  intro u
  by_cases hu : u = t
  · exact hu ▸ ht
  · obtain ⟨hc, hf, hr⟩ := h u
    rw [hphase u hu]
    refine ⟨hc, hf, fun item hitem => ?_⟩
    obtain ⟨hh, hp⟩ := hr item hitem
    have hheld : s.heldFrom t = true := by simp [ItemState.heldFrom, hh, hu]
    obtain ⟨hh', hp'⟩ := hframe hheld
    exact ⟨hh'.trans hh, hp'.trans hp⟩

theorem CallsReturn.setPhase (h : CallsReturn s) (t : Nat) {p : Phase} (hc : p ≠ .caught)
    (hf : p ≠ .failed) (hr : ∀ item, p ≠ .returned item) : CallsReturn (s.setPhase t p) := by
  refine h.of_step (fun u hu => phase_setPhase_ne s p hu) (fun _ => ⟨rfl, rfl⟩) ?_
  rw [Owes, phase_setPhase]
  exact ⟨hc, hf, fun item hp => absurd hp (hr item)⟩

theorem CallsReturn.lockAndReturn (h : CallsReturn s) {item : Item} (hfree : s.heldFrom t = false) :
    CallsReturn ((s.hold t (some item)).setPhase t (.returned item)) := by
  refine h.of_step (fun u hu => phase_setPhase_ne _ _ hu) (fun hheld => ?_) ?_
  · rw [hfree] at hheld
    cases hheld
  · rw [Owes, phase_setPhase]
    exact ⟨nofun, nofun, fun _ hp => Phase.returned.inj hp ▸ ⟨rfl, rfl⟩⟩

theorem CallsReturn.hold (h : CallsReturn s) (hfree : s.heldFrom t = false)
    (version : Option Item) : CallsReturn ((s.hold t version).setPhase t .business) := by
  refine h.of_step (fun u hu => phase_setPhase_ne _ _ hu) (fun hheld => ?_) ?_
  · rw [hfree] at hheld
    cases hheld
  · rw [Owes, phase_setPhase]
    exact ⟨nofun, nofun, nofun⟩

theorem heldFrom_of_isNone (h : s.holder.isNone = true) : s.heldFrom t = false := by
  simp [ItemState.heldFrom, Option.isNone_iff_eq_none.mp h]

theorem heldFrom_self (h : s.holder = some t) : s.heldFrom t = false := by
  simp [ItemState.heldFrom, h]

theorem CallsReturn.release (h : CallsReturn s) (t : Nat)
    (hs' : s'.phase = (s.setPhase t .business).phase)
    (hholder : s'.holder = if s.holder = some t then none else s.holder)
    (hpending : s'.pending = s.pending) : CallsReturn s' := by
  refine h.of_step (t := t) (fun u hu => ?_) (fun hheld => ⟨?_, hpending⟩) ?_
  · rw [hs', phase_setPhase_ne s _ hu]
  · rw [hholder, if_neg]
    rintro hown
    rw [heldFrom_self hown] at hheld
    cases hheld
  · rw [Owes, hs', phase_setPhase]
    exact ⟨nofun, nofun, nofun⟩

theorem CallsReturn.step (h : CallsReturn s) (he : unmet s e = true) : CallsReturn (step s e) := by
  cases e with
  | call t =>
      show CallsReturn (if (s.phase t).isOpen then s.setPhase t .reading else s)
      split
      · exact h.setPhase t nofun nofun nofun
      · exact h
  | read t =>
      show CallsReturn (if s.phase t = .reading then _ else s)
      split
      case isFalse => exact h
      case isTrue =>
        cases hv : s.view t with
        | none => exact h.setPhase t nofun nofun nofun
        | some item =>
            by_cases hheld : s.heldFrom t = true
            · simp only [hheld, if_true]
              exact h.setPhase t nofun nofun nofun
            · simp only [hheld]
              exact h.lockAndReturn (Bool.not_eq_true _ ▸ hheld)
  | wake t =>
      show CallsReturn (match s.phase t with
        | .waiting id => _
        | _ => s)
      split
      case h_2 => exact h
      case h_1 id _ =>
        by_cases hsome : s.holder.isSome = true
        · simp only [hsome, if_true]
          exact h
        · have hfree : s.heldFrom t = false := by simp [ItemState.heldFrom, hsome]
          simp only [hsome]
          cases s.committed with
          | none => exact h.setPhase t nofun nofun nofun
          | some item =>
              by_cases hid : item.1 = id
              · simp only [hid, if_true]
                exact h.lockAndReturn hfree
              · simp only [hid, if_false]
                exact h.setPhase t nofun nofun nofun
  | insert t =>
      show CallsReturn (if s.phase t = .inserting && !s.heldFrom t then _ else s)
      split
      case isFalse => exact h
      case isTrue hready =>
        cases hv : s.view t with
        | some item =>
            simp only [unmet, hready, hv] at he
            cases he
        | none =>
            have hfree : s.heldFrom t = false := by
              rw [Bool.and_eq_true, Bool.not_eq_true'] at hready
              exact hready.2
            exact h.lockAndReturn hfree
  | reread t =>
      show CallsReturn (if s.phase t = .caught then _ else s)
      rw [if_neg (h t).1]
      exact h
  | lock t =>
      show CallsReturn (if (s.phase t).isOpen && s.holder.isNone && s.committed.isSome then
        (s.hold t s.committed).setPhase t .business else s)
      split
      case isFalse => exact h
      case isTrue hg =>
        rw [Bool.and_eq_true, Bool.and_eq_true] at hg
        exact h.hold (heldFrom_of_isNone hg.1.2) _
  | write t qty =>
      show CallsReturn (if (s.phase t).isOpen && s.holder = some t then
        (s.hold t _).setPhase t .business else s)
      split
      case isFalse => exact h
      case isTrue hg =>
        rw [Bool.and_eq_true, decide_eq_true_eq] at hg
        exact h.hold (heldFrom_self hg.2) _
  | cleanup t =>
      show CallsReturn (if (s.phase t).isOpen && s.holder = some t && _ then
        (s.hold t none).setPhase t .business else s)
      split
      case isFalse => exact h
      case isTrue hg =>
        rw [Bool.and_eq_true, Bool.and_eq_true, decide_eq_true_eq] at hg
        exact h.hold (heldFrom_self hg.1.2) _
  | commit t =>
      show CallsReturn (if (s.phase t).isOpen then _ else s)
      split
      case isFalse => exact h
      case isTrue => exact h.release t rfl rfl rfl
  | rollback t => exact h.release t rfl rfl rfl

/-- In a run in which no insert meets an item committed behind its call's read, every call
returns the live item under its row lock. -/
theorem callsReturn_of_run (committed : Option Item) (nextId : Nat) (events : List ItemEvent)
    (h : Along step (fun s e => unmet s e = true) (.start committed nextId) events) :
    Along step (fun s e => CallsReturn (step s e)) (.start committed nextId) events :=
  h.strengthen (I := CallsReturn) (fun _ => ⟨nofun, nofun, nofun⟩) (fun _ _ h he => h.step he)
    fun _ _ h he => h.step he

/-- One creation after the other. -/
theorem callsReturn_in_turn :
    Along step (fun s e => CallsReturn (step s e)) (.start none 1)
      [.call 1, .read 1, .insert 1, .write 1 5, .commit 1, .call 2, .read 2] :=
  callsReturn_of_run none 1 _ (by decide +kernel)

/-- Two first creations: the second insert waits for the first transaction's commit, fails on
the unique index, and its transaction cannot read the item any more. -/
theorem not_callsReturn_together :
    ¬ Along step (fun s e => CallsReturn (step s e)) (.start none 1)
      ([.call 1, .read 1, .call 2, .read 2, .insert 1, .write 1 5, .commit 1, .insert 2] ++
        [.reread 2]) := by
  intro h
  exact (h.at_split 2).2.1 (by decide +kernel)

end Wbme.Asset.ItemCreation

import Mathlib.Logic.Function.Basic
import Wbme.Lib.Along

/-! # Platform settings

A setting is a stored override over a default. Every service instance reads through a cache of
its own that holds a value for five seconds; an update is checked against such reads and then
written in one transaction.
-/

namespace Wbme.Base

open Lib

inductive SettingKey where
  | sessionIdleTimeout
  | sessionIdleRemember
  | sessionAbsTimeout
  | sessionAbsRemember
  | loginAccountMaxAttempts
  | loginAccountLockSeconds
  | loginIpWindowSeconds
  | loginIpMaxAttempts
  | loginIpLockSeconds
  | invitationValidSeconds
  | queryDefaultWindowDays
  | exportMaxRows
  | backupRetentionDays
  | uploadUnassociatedImageRetentionHours
  | approvalTimeoutCancelDays
  | notificationDurationSeconds
  | logCleanupIntervalHours
  | logCleanupOperationLogCreateDays
  | logCleanupOperationLogUpdateDays
  | logCleanupOperationLogDeleteDays
  | logCleanupOperationLogExportDays
  | logCleanupOperationLogQueryDays
  | logCleanupErrorLogDays
  | logCleanupSecurityLogDays
deriving DecidableEq

structure SettingDefinition where
  defaultValue : Int
  min : Int
  max : Int

namespace SettingKey

def definition : SettingKey → SettingDefinition
  | sessionIdleTimeout => ⟨24 * 60 * 60, 60, 30 * 24 * 60 * 60⟩
  | sessionIdleRemember => ⟨30 * 24 * 60 * 60, 60, 180 * 24 * 60 * 60⟩
  | sessionAbsTimeout => ⟨7 * 24 * 60 * 60, 60, 90 * 24 * 60 * 60⟩
  | sessionAbsRemember => ⟨90 * 24 * 60 * 60, 60, 365 * 24 * 60 * 60⟩
  | loginAccountMaxAttempts => ⟨10, 1, 100⟩
  | loginAccountLockSeconds => ⟨10 * 60, 60, 24 * 60 * 60⟩
  | loginIpWindowSeconds => ⟨60 * 60, 60, 24 * 60 * 60⟩
  | loginIpMaxAttempts => ⟨120, 1, 10000⟩
  | loginIpLockSeconds => ⟨60 * 60, 60, 24 * 60 * 60⟩
  | invitationValidSeconds => ⟨7 * 24 * 60 * 60, 60, 90 * 24 * 60 * 60⟩
  | queryDefaultWindowDays => ⟨30, 1, 365⟩
  | exportMaxRows => ⟨100000, 1, 200000⟩
  | backupRetentionDays => ⟨30, 7, 365⟩
  | uploadUnassociatedImageRetentionHours => ⟨24, 1, 168⟩
  | approvalTimeoutCancelDays => ⟨30, 1, 365⟩
  | notificationDurationSeconds => ⟨5, 1, 60⟩
  | logCleanupIntervalHours => ⟨24, 0, 24 * 30⟩
  | logCleanupOperationLogCreateDays => ⟨365, 0, 36500⟩
  | logCleanupOperationLogUpdateDays => ⟨365, 0, 36500⟩
  | logCleanupOperationLogDeleteDays => ⟨365, 0, 36500⟩
  | logCleanupOperationLogExportDays => ⟨365, 0, 36500⟩
  | logCleanupOperationLogQueryDays => ⟨30, 0, 36500⟩
  | logCleanupErrorLogDays => ⟨180, 0, 36500⟩
  | logCleanupSecurityLogDays => ⟨365, 0, 36500⟩

/-- The durations that are edited in minutes and stored in seconds. -/
def minuteBased : SettingKey → Bool
  | sessionIdleTimeout | sessionIdleRemember | sessionAbsTimeout | sessionAbsRemember
  | loginAccountLockSeconds | loginIpWindowSeconds | loginIpLockSeconds
  | invitationValidSeconds => true
  | _ => false

end SettingKey

open SettingKey

def sessionTimeoutPairs : List (SettingKey × SettingKey) :=
  [(sessionIdleTimeout, sessionAbsTimeout), (sessionIdleRemember, sessionAbsRemember)]

/-! ## Updates -/

/-- The entries of a patch. An object has each key once; a map of them keeps the last value. -/
abbrev Patches := List (SettingKey × Int)

def Patches.get (patches : Patches) (key : SettingKey) : Option Int :=
  patches.foldl (fun found p => if p.1 = key then some p.2 else found) none

def Patches.has (patches : Patches) (key : SettingKey) : Bool := (patches.get key).isSome

/-- The checks of the single values. -/
def Patches.valid (patches : Patches) : Bool :=
  !patches.isEmpty && patches.all fun p =>
    p.1.definition.min ≤ p.2 && p.2 ≤ p.1.definition.max &&
      !(p.1.minuteBased && p.2 % 60 != 0)

/-- The keys that the check of the pairs reads, in its order: none if no pair is patched, else
every key of the pairs that the patch leaves out. -/
def Patches.toRead (patches : Patches) : List SettingKey :=
  if sessionTimeoutPairs.any fun p => patches.has p.1 || patches.has p.2 then
    (sessionTimeoutPairs.flatMap fun p => [p.1, p.2]).filter fun key => !patches.has key
  else []

/-- The upserts of a transaction, one key after the other. -/
def Patches.write (patches : Patches) (overrides : SettingKey → Option Int) :
    SettingKey → Option Int :=
  patches.foldl (fun o p => Function.update o p.1 (some p.2)) overrides

/-- Where a call of `getNumber` is: before the cache, before the database, or with the answer
that is not in the cache yet. -/
inductive Reading where
  | looking
  | missed
  | fetched (value : Int)

/-- A call on an instance: of `updatePlatformSettings`, or of `getNumber` by itself, which is one
without patches that reads a single key. -/
structure Call where
  inst : Nat
  patches : Patches
  toRead : List SettingKey
  reading : Reading
  values : SettingKey → Option Int
  committed : Bool

namespace Call

def effectiveValue (c : Call) (key : SettingKey) : Option Int :=
  (c.patches.get key).orElse fun _ => c.values key

/-- Both values of a pair are known and the idle timeout is the longer one. -/
def rejected (c : Call) : Bool :=
  sessionTimeoutPairs.any fun p =>
    match c.effectiveValue p.1, c.effectiveValue p.2 with
    | some idle, some absolute => idle > absolute
    | _, _ => false

/-- A call throws as soon as a pair is rejected. -/
def kept (c : Call) : Option Call := if c.rejected then none else some c

/-- A read has returned. -/
def take (c : Call) (key : SettingKey) (rest : List SettingKey) (value : Int) : Call :=
  { c with
    toRead := rest
    reading := .looking
    values := Function.update c.values key (some value) }

end Call

/-! ## Instances and the database -/

structure CachedOverride where
  value : Int
  fetchedAt : Int

def cacheTtlMs : Int := 5000

structure Platform where
  overrides : SettingKey → Option Int
  caches : Nat → SettingKey → Option CachedOverride
  calls : Nat → Option Call

namespace Platform

def start (overrides : SettingKey → Option Int) : Platform :=
  ⟨overrides, fun _ _ => none, fun _ => none⟩

def effective (s : Platform) (key : SettingKey) : Int :=
  (s.overrides key).getD key.definition.defaultValue

def setCall (s : Platform) (id : Nat) (c : Option Call) : Platform :=
  { s with calls := Function.update s.calls id c }

def setCache (s : Platform) (inst : Nat) (key : SettingKey) (entry : Option CachedOverride) :
    Platform :=
  { s with caches := Function.update s.caches inst (Function.update (s.caches inst) key entry) }

end Platform

/-- What happens: a call begins under a new id, looks into its cache, gets the database's answer
(or the default, where the read fails), caches it, commits, and drops the keys from the cache. -/
inductive SettingEvent where
  | getNumber (id inst : Nat) (key : SettingKey)
  | update (id inst : Nat) (patches : Patches)
  | look (id : Nat) (now : Int)
  | fetch (id : Nat) (ok : Bool)
  | store (id : Nat) (now : Int)
  | commit (id : Nat)
  | finish (id : Nat)

def step (s : Platform) : SettingEvent → Platform
  | .getNumber id inst key =>
      match s.calls id with
      | some _ => s
      | none => s.setCall id (some ⟨inst, [], [key], .looking, fun _ => none, false⟩)
  | .update id inst patches =>
      match s.calls id with
      | some _ => s
      | none =>
          if patches.valid then
            s.setCall id (Call.mk inst patches patches.toRead .looking (fun _ => none) false).kept
          else s
  | .look id now =>
      match s.calls id with
      | some c =>
          match c.reading, c.toRead with
          | .looking, key :: rest =>
              match s.caches c.inst key with
              | some cached =>
                  if now - cached.fetchedAt < cacheTtlMs then
                    s.setCall id (c.take key rest cached.value).kept
                  else s.setCall id (some { c with reading := .missed })
              | none => s.setCall id (some { c with reading := .missed })
          | _, _ => s
      | none => s
  | .fetch id ok =>
      match s.calls id with
      | some c =>
          match c.reading, c.toRead with
          | .missed, key :: _ =>
              let value := if ok then s.effective key else key.definition.defaultValue
              s.setCall id (some { c with reading := .fetched value })
          | _, _ => s
      | none => s
  | .store id now =>
      match s.calls id with
      | some c =>
          match c.reading, c.toRead with
          | .fetched value, key :: rest =>
              (s.setCache c.inst key (some ⟨value, now⟩)).setCall id (c.take key rest value).kept
          | _, _ => s
      | none => s
  | .commit id =>
      match s.calls id with
      | some c =>
          if c.toRead.isEmpty && !c.committed then
            { s.setCall id (some { c with committed := true }) with
              overrides := c.patches.write s.overrides }
          else s
      | none => s
  | .finish id =>
      match s.calls id with
      | some c =>
          if c.committed then
            c.patches.foldl (fun s p => s.setCache c.inst p.1 none) (s.setCall id none)
          else s
      | none => s

/-! ## The order of the timeouts -/

/-- No session kind has an idle timeout over its absolute one. -/
def TimeoutsOrdered (s : Platform) : Prop :=
  ∀ p ∈ sessionTimeoutPairs, s.effective p.1 ≤ s.effective p.2

instance (s : Platform) : Decidable (TimeoutsOrdered s) :=
  inferInstanceAs (Decidable (∀ p ∈ sessionTimeoutPairs, s.effective p.1 ≤ s.effective p.2))

/-- A commit that patches one key of a pair was checked against the committed value of the
other. -/
def upToDate (s : Platform) : SettingEvent → Bool
  | .commit id =>
      match s.calls id with
      | some c =>
          sessionTimeoutPairs.all fun p =>
            !(c.patches.has p.1 || c.patches.has p.2) ||
              [p.1, p.2].all fun key => c.patches.has key || c.values key == some (s.effective key)
      | none => true
  | _ => true

/-- Every call in flight has passed the checks of the values it knows. -/
def Checked (s : Platform) : Prop := ∀ id c, s.calls id = some c → c.rejected = false

variable {s : Platform} {e : SettingEvent} {events : List SettingEvent}

/-! ## Calls -/

theorem Call.rejected_of_kept {c c' : Call} (h : c.kept = some c') : c'.rejected = false := by
  unfold Call.kept at h
  by_cases hc : c.rejected = true
  · rw [if_pos hc] at h
    cases h
  · rw [if_neg hc] at h
    obtain rfl := Option.some.inj h
    exact Bool.not_eq_true _ ▸ hc

theorem Checked.setCall (h : Checked s) (id : Nat) {c : Option Call}
    (hc : ∀ c', c = some c' → c'.rejected = false) : Checked (s.setCall id c) := by
  intro i c' hi
  by_cases hid : i = id
  · subst hid
    have hself : (s.setCall i c).calls i = c := Function.update_self ..
    exact hc c' (hself.symm.trans hi)
  · have hother : (s.setCall id c).calls i = s.calls i := Function.update_of_ne hid ..
    exact h i c' (hother.symm.trans hi)

theorem Checked.setCall_kept (h : Checked s) (id : Nat) (c : Call) :
    Checked (s.setCall id c.kept) :=
  h.setCall id fun _ => Call.rejected_of_kept

theorem Checked.setCall_some (h : Checked s) (id : Nat) {c : Call} (hc : c.rejected = false) :
    Checked (s.setCall id (some c)) :=
  h.setCall id fun _ hc' => Option.some.inj hc' ▸ hc

theorem Checked.clearCaches (h : Checked s) (inst : Nat) (patches : Patches) :
    Checked (patches.foldl (fun s p => s.setCache inst p.1 none) s) := by
  induction patches generalizing s with
  | nil => exact h
  | cons p patches ih => exact ih (s := s.setCache inst p.1 none) h

theorem Checked.step (h : Checked s) : Checked (step s e) := by
  cases e with
  | getNumber id inst key =>
      show Checked (match s.calls id with
        | some _ => s
        | none => _)
      split
      case h_1 => exact h
      case h_2 => exact h.setCall_some id rfl
  | update id inst patches =>
      show Checked (match s.calls id with
        | some _ => s
        | none => if patches.valid then _ else s)
      split
      case h_1 => exact h
      case h_2 =>
        split
        case isTrue => exact h.setCall_kept id _
        case isFalse => exact h
  | look id now =>
      show Checked (match s.calls id with
        | some c => _
        | none => s)
      split
      case h_2 => exact h
      case h_1 c hcall =>
        have hc := h id c hcall
        split
        case h_2 => exact h
        case h_1 key rest _ _ =>
          split
          case h_2 => exact h.setCall_some id hc
          case h_1 cached _ =>
            split
            case isTrue => exact h.setCall_kept id _
            case isFalse => exact h.setCall_some id hc
  | fetch id ok =>
      show Checked (match s.calls id with
        | some c => _
        | none => s)
      split
      case h_2 => exact h
      case h_1 c hcall =>
        split
        case h_2 => exact h
        case h_1 => exact h.setCall_some id (h id c hcall)
  | store id now =>
      show Checked (match s.calls id with
        | some c => _
        | none => s)
      split
      case h_2 => exact h
      case h_1 c hcall =>
        split
        case h_2 => exact h
        case h_1 value key rest _ _ =>
          exact Checked.setCall_kept (s := s.setCache c.inst key (some ⟨value, now⟩)) h id _
  | commit id =>
      show Checked (match s.calls id with
        | some c => if c.toRead.isEmpty && !c.committed then _ else s
        | none => s)
      split
      case h_2 => exact h
      case h_1 c hcall =>
        split
        case isFalse => exact h
        case isTrue => exact h.setCall_some id (c := { c with committed := true }) (h id c hcall)
  | finish id =>
      show Checked (match s.calls id with
        | some c => if c.committed then _ else s
        | none => s)
      split
      case h_2 => exact h
      case h_1 c hcall =>
        split
        case isFalse => exact h
        case isTrue => exact (h.setCall id (c := none) fun _ hn => nomatch hn).clearCaches _ _

/-! ## Overrides -/

theorem overrides_clearCaches (s : Platform) (inst : Nat) (patches : Patches) :
    (patches.foldl (fun s p => s.setCache inst p.1 none) s).overrides = s.overrides := by
  induction patches generalizing s with
  | nil => rfl
  | cons p patches ih => exact ih (s.setCache inst p.1 none)

theorem overrides_commit (s : Platform) (id : Nat) :
    (step s (.commit id)).overrides = s.overrides ∨
      ∃ c, s.calls id = some c ∧
        (step s (.commit id)).overrides = c.patches.write s.overrides := by
  cases hcall : s.calls id with
  | none =>
      left
      show (match s.calls id with
        | some c => if c.toRead.isEmpty && !c.committed then _ else s
        | none => s).overrides = s.overrides
      rw [hcall]
  | some c =>
      by_cases hc : (c.toRead.isEmpty && !c.committed) = true
      · refine .inr ⟨c, rfl, ?_⟩
        show (match s.calls id with
          | some c =>
              if c.toRead.isEmpty && !c.committed then
                { s.setCall id (some { c with committed := true }) with
                  overrides := c.patches.write s.overrides }
              else s
          | none => s).overrides = c.patches.write s.overrides
        rw [hcall]
        simp only [hc, if_true]
      · left
        show (match s.calls id with
          | some c => if c.toRead.isEmpty && !c.committed then _ else s
          | none => s).overrides = s.overrides
        rw [hcall]
        simp only [hc]
        rfl

theorem overrides_step (s : Platform) (e : SettingEvent) (he : ∀ id, e ≠ .commit id) :
    (step s e).overrides = s.overrides := by
  cases e with
  | commit id => exact absurd rfl (he id)
  | finish id =>
      show (match s.calls id with
        | some c => if c.committed then _ else s
        | none => s).overrides = s.overrides
      split
      case h_2 => rfl
      case h_1 c _ =>
        split
        case isFalse => rfl
        case isTrue => exact overrides_clearCaches ..
  | getNumber id inst key =>
      show (match s.calls id with
        | some _ => s
        | none => s.setCall id _).overrides = s.overrides
      split <;> rfl
  | update id inst patches =>
      show (match s.calls id with
        | some _ => s
        | none => if patches.valid then s.setCall id _ else s).overrides = s.overrides
      split
      case h_1 => rfl
      case h_2 => split <;> rfl
  | look id now =>
      show (match s.calls id with
        | some c => _
        | none => s).overrides = s.overrides
      split
      case h_2 => rfl
      case h_1 c _ =>
        split
        case h_2 => rfl
        case h_1 =>
          split
          case h_2 => rfl
          case h_1 => split <;> rfl
  | fetch id ok =>
      show (match s.calls id with
        | some c => _
        | none => s).overrides = s.overrides
      split
      case h_2 => rfl
      case h_1 => split <;> rfl
  | store id now =>
      show (match s.calls id with
        | some c => _
        | none => s).overrides = s.overrides
      split
      case h_2 => rfl
      case h_1 => split <;> rfl

namespace Patches

theorem write_get (patches : Patches) (overrides : SettingKey → Option Int) (key : SettingKey) :
    patches.write overrides key = (patches.get key).orElse fun _ => overrides key := by
  suffices h : ∀ (o : SettingKey → Option Int) (found : Option Int),
      o key = found.orElse (fun _ => overrides key) →
      patches.foldl (fun (o : SettingKey → Option Int) p => Function.update o p.1 (some p.2))
          o key =
        (patches.foldl (fun found (p : SettingKey × Int) => if p.1 = key then some p.2 else found)
          found).orElse fun _ => overrides key from
    h overrides none rfl
  induction patches with
  | nil => exact fun _ _ h => h
  | cons p patches ih =>
      intro o found h
      refine ih _ _ ?_
      show Function.update o p.1 (some p.2) key =
        (if p.1 = key then some p.2 else found).orElse fun _ => overrides key
      by_cases hp : p.1 = key
      · subst hp
        rw [Function.update_self, if_pos rfl]
        rfl
      · rw [Function.update_of_ne (Ne.symm hp), if_neg hp, h]

end Patches

/-! ## Runs -/

theorem effective_write {c : Call} {s' : Platform} {key : SettingKey}
    (hs' : s'.overrides = c.patches.write s.overrides)
    (h : (c.patches.has key || c.values key == some (s.effective key)) = true) :
    c.effectiveValue key = some (s'.effective key) := by
  rw [Platform.effective, hs', Patches.write_get, Call.effectiveValue]
  cases hget : c.patches.get key with
  | some value => rfl
  | none =>
      have hno : c.patches.has key = false := by
        rw [Patches.has, hget]
        rfl
      rw [hno, Bool.false_or, beq_iff_eq] at h
      exact h

theorem TimeoutsOrdered.step (h : TimeoutsOrdered s) (hc : Checked s)
    (he : upToDate s e = true) : TimeoutsOrdered (step s e) := by
  by_cases hcommit : ∃ id, e = .commit id
  · obtain ⟨id, rfl⟩ := hcommit
    rcases overrides_commit s id with hs | ⟨c, hcall, hs⟩
    · intro p hp
      rw [Platform.effective, Platform.effective, hs]
      exact h p hp
    · intro p hp
      have hup : sessionTimeoutPairs.all (fun p =>
          !(c.patches.has p.1 || c.patches.has p.2) ||
            [p.1, p.2].all fun key =>
              c.patches.has key || c.values key == some (s.effective key)) = true := by
        simpa only [upToDate, hcall] using he
      have hpair := List.all_eq_true.mp hup p hp
      by_cases htouched : (c.patches.has p.1 || c.patches.has p.2) = true
      · -- both values are the committed ones, and the call would have thrown
        rw [htouched, Bool.not_true, Bool.false_or] at hpair
        have h₁ := effective_write hs (List.all_eq_true.mp hpair p.1 (by simp))
        have h₂ := effective_write hs (List.all_eq_true.mp hpair p.2 (by simp))
        have hrej := hc id c hcall
        rw [Call.rejected, List.any_eq_false] at hrej
        have := hrej p hp
        rw [h₁, h₂] at this
        simpa using this
      · -- the pair is not touched
        have hkeys : c.patches.get p.1 = none ∧ c.patches.get p.2 = none := by
          simpa [Patches.has] using htouched
        rw [Platform.effective, Platform.effective, hs, Patches.write_get, Patches.write_get,
          hkeys.1, hkeys.2]
        exact h p hp
  · have hs := overrides_step s e fun id hid => hcommit ⟨id, hid⟩
    intro p hp
    rw [Platform.effective, Platform.effective, hs]
    exact h p hp

/-- From overrides that keep the order, every committed state keeps it, as long as each update
was checked against the committed values of the keys that it leaves. -/
theorem timeoutsOrdered_of_run (overrides : SettingKey → Option Int)
    (h0 : TimeoutsOrdered (.start overrides)) (events : List SettingEvent)
    (h : Along step (fun s e => upToDate s e = true) (.start overrides) events) :
    Along step (fun s e => TimeoutsOrdered (step s e)) (.start overrides) events :=
  h.strengthen (I := fun s => TimeoutsOrdered s ∧ Checked s) ⟨h0, fun _ _ hc => nomatch hc⟩
    (fun _ _ hI he => ⟨hI.1.step hI.2 he, hI.2.step⟩) fun _ _ hI he => hI.1.step hI.2 he

/-- A call that finds nothing in its cache reads three settings. -/
def readsThree (id : Nat) : List SettingEvent :=
  (List.replicate 3 [.look id 0, .fetch id true, .store id 0]).flatten

theorem timeoutsOrdered_one_update :
    Along step (fun s e => TimeoutsOrdered (step s e)) (.start fun _ => none)
      (.update 1 0 [(sessionIdleTimeout, 432000)] :: readsThree 1 ++ [.commit 1, .finish 1]) :=
  timeoutsOrdered_of_run _ (by decide) _ (by decide +kernel)

/-- Two updates, one of each key, are each checked against the value that the other replaces:
an idle timeout of five days stands beside an absolute one of two. -/
theorem not_timeoutsOrdered_two_updates :
    ¬ Along step (fun s e => TimeoutsOrdered (step s e)) (.start fun _ => none)
      (.update 1 0 [(sessionIdleTimeout, 432000)] :: readsThree 1 ++
        .update 2 1 [(sessionAbsTimeout, 172800)] :: readsThree 2 ++ [.commit 1, .commit 2]) := by
  decide +kernel

end Wbme.Base

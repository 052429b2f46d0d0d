import Wbme.Lib.Along
import Mathlib.Data.List.Perm.Basic

/-! # The semaphore of the holiday adapter

Calls of the provider share a bounded number of permits. A call that finds none waits; a release
wakes the first waiter, which takes its permit when its continuation runs. Until then other code
may run. Calls of `acquire` are numbered as they come.
-/

namespace Wbme.Hr

structure Semaphore where
  active : Nat
  waiters : List Nat
  /-- The waiters whose promise is resolved and whose continuation is still to run. Continuations
  run in the order in which the promises were resolved. -/
  woken : List Nat
  calls : Nat
  /-- The calls that had to wait, in the order they came. -/
  queued : List Nat
  /-- The calls that got a permit, in that order. -/
  granted : List Nat
  holders : List Nat

namespace Semaphore

def init : Semaphore := ⟨0, [], [], 0, [], [], []⟩

/-- A call takes a permit. -/
def take (s : Semaphore) (call : Nat) : Semaphore :=
  { s with active := s.active + 1, granted := s.granted ++ [call], holders := s.holders ++ [call] }

def acquire (maxConcurrent : Nat) (s : Semaphore) : Semaphore :=
  if s.active < maxConcurrent then { s.take s.calls with calls := s.calls + 1 }
  else
    { s with
      waiters := s.waiters ++ [s.calls]
      queued := s.queued ++ [s.calls]
      calls := s.calls + 1 }

def release (holder : Nat) (s : Semaphore) : Semaphore :=
  { s with
    active := s.active - 1
    holders := s.holders.erase holder
    woken := s.woken ++ s.waiters.take 1
    waiters := s.waiters.drop 1 }

/-- The continuation of the waiter woken first. -/
def resume (s : Semaphore) : Semaphore :=
  match s.woken with
  | [] => s
  | call :: woken => ({ s with woken } : Semaphore).take call

inductive Event where
  | acquire
  | release (holder : Nat)
  | resume

def step (maxConcurrent : Nat) (s : Semaphore) : Event → Semaphore
  | .acquire => s.acquire maxConcurrent
  | .release holder => if holder ∈ s.holders then s.release holder else s
  | .resume => s.resume

structure Law (maxConcurrent : Nat) (s : Semaphore) : Prop where
  bounded : s.holders.length ≤ maxConcurrent
  wakes : ∀ holder ∈ s.holders, ∀ call rest, s.waiters = call :: rest →
    (s.release holder).woken = s.woken ++ [call] ∧ (s.release holder).waiters = rest
  /-- No wake-up is lost. -/
  settled : s.holders = [] → s.woken = [] →
    s.waiters = [] ∧ (s.acquire maxConcurrent).holders = [s.calls]
  /-- No call is granted twice or forgotten. -/
  once : (s.granted ++ s.woken ++ s.waiters).Perm (List.range s.calls)
  /-- Those who had to wait are served in the order they came. -/
  inOrder : s.granted.filter (· ∈ s.queued) ++ s.woken ++ s.waiters = s.queued

/-- No call takes a permit that a woken waiter is about to take. -/
def LeavesWoken (maxConcurrent : Nat) (s : Semaphore) (e : Event) : Prop :=
  match e with
  | .acquire => s.active < maxConcurrent → s.active + s.woken.length < maxConcurrent
  | _ => True

/-! ## Runs -/

/-- What the counter and the lists say of each other, whoever comes in between. -/
structure Kept (maxConcurrent : Nat) (s : Semaphore) : Prop where
  counted : s.active = s.holders.length
  full : s.waiters ≠ [] → maxConcurrent ≤ s.active + s.woken.length
  once : (s.granted ++ s.woken ++ s.waiters).Perm (List.range s.calls)
  inOrder : s.granted.filter (· ∈ s.queued) ++ s.woken ++ s.waiters = s.queued

section Steps

variable {maxConcurrent : Nat} {s : Semaphore}

theorem Kept.lt (h : s.Kept maxConcurrent) {call : Nat}
    (hmem : call ∈ s.granted ++ s.woken ++ s.waiters) : call < s.calls :=
  List.mem_range.mp (h.once.mem_iff.mp hmem)

theorem Kept.queued_lt (h : s.Kept maxConcurrent) {call : Nat} (hmem : call ∈ s.queued) :
    call < s.calls := by
  apply h.lt
  rw [← h.inOrder] at hmem
  simp only [List.mem_append, List.mem_filter] at hmem ⊢
  tauto

theorem Kept.acquire (h : s.Kept maxConcurrent) : (s.acquire maxConcurrent).Kept maxConcurrent := by
  have hnew : (s.granted ++ s.woken ++ s.waiters ++ [s.calls]).Perm
      (List.range (s.calls + 1)) := by
    rw [List.range_succ]
    exact h.once.append_right _
  unfold Semaphore.acquire
  split
  · -- a permit is free
    have hfilter : (s.granted ++ [s.calls]).filter (· ∈ s.queued) =
        s.granted.filter (· ∈ s.queued) := by
      have hnot : s.calls ∉ s.queued := fun hmem => Nat.lt_irrefl _ (h.queued_lt hmem)
      simp [List.filter_append, hnot]
    exact {
      counted := by simp [take, h.counted]
      full := fun hne => by
        have := h.full hne
        simp only [take]
        omega
      once := by
        refine List.Perm.trans ?_ hnew
        show (s.granted ++ [s.calls] ++ s.woken ++ s.waiters).Perm _
        simp only [List.append_assoc]
        exact List.Perm.append_left _ (List.perm_append_comm.trans (by simp))
      inOrder := by
        show (s.granted ++ [s.calls]).filter (· ∈ s.queued) ++ s.woken ++ s.waiters = s.queued
        rw [hfilter]
        exact h.inOrder }
  · rename_i hnone
    have hfilter : s.granted.filter (· ∈ s.queued ++ [s.calls]) =
        s.granted.filter (· ∈ s.queued) := by
      apply List.filter_congr
      intro call hcall
      have hlt : call < s.calls := h.lt (by simp [hcall])
      simp [Nat.ne_of_lt hlt]
    exact {
      counted := h.counted
      full := fun _ => by
        show maxConcurrent ≤ s.active + s.woken.length
        omega
      once := by
        show (s.granted ++ s.woken ++ (s.waiters ++ [s.calls])).Perm _
        rw [← List.append_assoc]
        exact hnew
      inOrder := by
        show s.granted.filter (· ∈ s.queued ++ [s.calls]) ++ s.woken ++ (s.waiters ++ [s.calls]) = _
        rw [hfilter, ← List.append_assoc, h.inOrder] }

theorem Kept.release (h : s.Kept maxConcurrent) {holder : Nat} (hholder : holder ∈ s.holders) :
    (s.release holder).Kept maxConcurrent := by
  have hpos : 0 < s.holders.length := List.length_pos_of_mem hholder
  have hsplit : s.woken ++ s.waiters.take 1 ++ s.waiters.drop 1 = s.woken ++ s.waiters := by
    rw [List.append_assoc, List.take_append_drop]
  exact {
    counted := by
      show s.active - 1 = (s.holders.erase holder).length
      rw [List.length_erase_of_mem hholder, h.counted]
    full := fun hne => by
      have hwaiters : s.waiters ≠ [] := by
        intro hnil
        exact hne (by simp [Semaphore.release, hnil])
      have hfull := h.full hwaiters
      have hcounted := h.counted
      have hlen : 0 < s.waiters.length := List.length_pos_iff.mpr hwaiters
      simp only [Semaphore.release, List.length_append, List.length_take]
      omega
    once := by
      show (s.granted ++ (s.woken ++ s.waiters.take 1) ++ s.waiters.drop 1).Perm _
      rw [List.append_assoc, hsplit, ← List.append_assoc]
      exact h.once
    inOrder := by
      show s.granted.filter (· ∈ s.queued) ++ (s.woken ++ s.waiters.take 1) ++ s.waiters.drop 1 = _
      rw [List.append_assoc, hsplit, ← List.append_assoc]
      exact h.inOrder }

theorem Kept.resume (h : s.Kept maxConcurrent) : s.resume.Kept maxConcurrent := by
  unfold Semaphore.resume
  split
  · exact h
  · rename_i call woken hwoken
    have hqueued : call ∈ s.queued := by
      rw [← h.inOrder, hwoken]
      simp
    exact {
      counted := by simp [take, h.counted]
      full := fun hne => by
        have hfull := h.full hne
        rw [hwoken, List.length_cons] at hfull
        simp only [take]
        omega
      once := by
        have honce := h.once
        rw [hwoken] at honce
        simpa [take] using honce
      inOrder := by
        have horder := h.inOrder
        have hone : [call].filter (· ∈ s.queued) = [call] := by simp [hqueued]
        rw [hwoken] at horder
        show (s.granted ++ [call]).filter (· ∈ s.queued) ++ woken ++ s.waiters = s.queued
        rw [List.filter_append, hone]
        simpa only [List.append_assoc, List.cons_append, List.nil_append] using horder }

theorem Kept.step (h : s.Kept maxConcurrent) (e : Event) :
    (s.step maxConcurrent e).Kept maxConcurrent := by
  cases e with
  | acquire => exact h.acquire
  | release holder =>
      unfold Semaphore.step
      dsimp only
      split
      · rename_i hholder
        exact h.release hholder
      · exact h
  | resume => exact h.resume

/-- A permit is held or promised at most as often as there are permits. -/
def Within (maxConcurrent : Nat) (s : Semaphore) : Prop :=
  s.active + s.woken.length ≤ maxConcurrent

theorem within_step (h : s.Kept maxConcurrent) (hin : s.Within maxConcurrent) {e : Event}
    (he : s.LeavesWoken maxConcurrent e) : (s.step maxConcurrent e).Within maxConcurrent := by
  unfold Within at hin ⊢
  cases e with
  | acquire =>
      simp only [Semaphore.step, Semaphore.acquire]
      split
      · rename_i hfree
        have := he hfree
        simp only [take]
        omega
      · exact hin
  | release holder =>
      simp only [Semaphore.step]
      split
      · rename_i hholder
        have hpos : 0 < s.holders.length := List.length_pos_of_mem hholder
        have hcounted := h.counted
        simp only [Semaphore.release, List.length_append, List.length_take]
        omega
      · exact hin
  | resume =>
      simp only [Semaphore.step, Semaphore.resume]
      split
      · exact hin
      · rename_i call woken hwoken
        rw [hwoken, List.length_cons] at hin
        simp only [take]
        omega

theorem Kept.law (hmax : 1 ≤ maxConcurrent) (h : s.Kept maxConcurrent)
    (hin : s.Within maxConcurrent) : s.Law maxConcurrent where
  bounded := by
    have hcounted := h.counted
    unfold Within at hin
    omega
  wakes := by
    intro holder _ call rest hwaiters
    simp [Semaphore.release, hwaiters]
  settled := by
    intro hholders hwoken
    have hactive : s.active = 0 := by rw [h.counted, hholders]; rfl
    refine ⟨?_, ?_⟩
    · by_contra hne
      have hfull := h.full hne
      rw [hwoken, hactive, List.length_nil] at hfull
      omega
    · rw [Semaphore.acquire, if_pos (by omega)]
      simp [take, hholders]
  once := h.once
  inOrder := h.inOrder

theorem kept_init (maxConcurrent : Nat) : init.Kept maxConcurrent :=
  ⟨rfl, fun h => absurd rfl h, List.Perm.refl _, rfl⟩

theorem kept_run (maxConcurrent : Nat) (events : List Event) :
    (events.foldl (step maxConcurrent) init).Kept maxConcurrent :=
  List.foldlRecOn events _ (kept_init maxConcurrent) fun _ h e _ => h.step e

theorem resume_all (maxConcurrent : Nat) (s : Semaphore) :
    ((List.replicate s.woken.length Event.resume).foldl (step maxConcurrent) s).active =
      s.active + s.woken.length := by
  induction hn : s.woken.length generalizing s with
  | zero => rfl
  | succ n ih =>
      rw [List.replicate_succ, List.foldl_cons]
      cases hwoken : s.woken with
      | nil => rw [hwoken] at hn; cases hn
      | cons call woken =>
          have hstep : s.step maxConcurrent .resume =
              ({ s with woken } : Semaphore).take call := by
            simp [Semaphore.step, Semaphore.resume, hwoken]
          rw [hstep]
          have hlen : woken.length = n := by
            rw [hwoken] at hn
            exact Nat.succ.inj hn
          rw [ih (({ s with woken } : Semaphore).take call) hlen]
          simp only [take]
          omega

end Steps

/-- Along runs in which no call slips in before a woken waiter the semaphore does what it is for;
and a call that does leads to too many holders as soon as the woken waiters have run. -/
theorem law_of_leavesWoken (maxConcurrent : Nat) (hmax : 1 ≤ maxConcurrent) (events : List Event)
    (hrun : Lib.Along (step maxConcurrent) (LeavesWoken maxConcurrent) init events) :
    (events.foldl (step maxConcurrent) init).Law maxConcurrent ∧
      ∀ s, s = events.foldl (step maxConcurrent) init →
        ¬ s.LeavesWoken maxConcurrent .acquire →
        ¬ ((.acquire :: List.replicate s.woken.length Event.resume).foldl
          (step maxConcurrent) s).Law maxConcurrent := by
  have hboth : (events.foldl (step maxConcurrent) init).Kept maxConcurrent ∧
      (events.foldl (step maxConcurrent) init).Within maxConcurrent :=
    hrun.induction (I := fun s => s.Kept maxConcurrent ∧ s.Within maxConcurrent)
      ⟨kept_init maxConcurrent, Nat.zero_le _⟩
      fun _ _ h he => ⟨h.1.step _, within_step h.1 h.2 he⟩
  refine ⟨hboth.1.law hmax hboth.2, ?_⟩
  intro s hs hslip hlaw
  subst hs
  obtain ⟨hfree, hover⟩ := Classical.not_imp.mp hslip
  have hkept := kept_run maxConcurrent (events ++ .acquire :: List.replicate
    (events.foldl (step maxConcurrent) init).woken.length Event.resume)
  rw [List.foldl_append] at hkept
  have hbound := hlaw.bounded
  rw [← hkept.counted, List.foldl_cons] at hbound
  have htaken : (events.foldl (step maxConcurrent) init).step maxConcurrent .acquire =
      { (events.foldl (step maxConcurrent) init).take
          (events.foldl (step maxConcurrent) init).calls with
        calls := (events.foldl (step maxConcurrent) init).calls + 1 } := by
    rw [Semaphore.step, Semaphore.acquire, if_pos hfree]
  have hall := resume_all maxConcurrent
    ((events.foldl (step maxConcurrent) init).step maxConcurrent .acquire)
  rw [htaken] at hall hbound
  simp only [take] at hall hbound
  omega

theorem law_of_leavesWoken_turns : Law 1 (([.acquire, .acquire, .release 0, .resume, .release 1] :
    List Event).foldl (step 1) init) :=
  (law_of_leavesWoken 1 (Nat.le_refl 1) _ (by
    simp [Lib.Along, LeavesWoken, step, acquire, take, init])).1

/-- The first caller releases, and a third one comes before the woken second one runs. -/
theorem not_law_slipping_in : ¬ Law 1 (([.acquire, .acquire, .release 0, .acquire, .resume] :
    List Event).foldl (step 1) init) := by
  intro h
  have hbound := h.bounded
  simp [step, acquire, release, resume, take, init] at hbound

end Semaphore

end Wbme.Hr

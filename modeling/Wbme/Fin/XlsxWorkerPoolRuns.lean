import Mathlib.Data.List.Perm.Subperm
import Wbme.Fin.XlsxWorkerPool

/-! # Runs of the worker pool

What holds between two events: every task is queued, pending on one worker that is alive and
works on it, or settled; and tasks are queued only while every worker is busy or about to be
replaced. A worker that fails or was terminated is replaced before the next dispatch. One that
just exits is not.
-/

namespace Wbme.Fin

namespace XlsxWorkerPool

variable {ω : Type} {p : XlsxWorkerPool ω}

/-! ## Replacing a member of a list -/

theorem replace_cons_of_ne {x a : Nat} (hxa : x ≠ a) (b : Nat) (rest : List Nat) :
    (x :: rest).replace a b = x :: rest.replace a b := by
  have hne : (a == x) = false := by simpa using Ne.symm hxa
  rw [List.replace_cons, hne]

theorem mem_replace {l : List Nat} {a b : Nat} (hl : l.Nodup) (ha : a ∈ l) (v : Nat) :
    v ∈ l.replace a b ↔ v = b ∨ (v ∈ l ∧ v ≠ a) := by
  induction l with
  | nil => cases ha
  | cons x rest ih =>
      obtain ⟨hx, hrest⟩ := List.nodup_cons.mp hl
      by_cases hxa : x = a
      · subst hxa
        rw [List.replace_cons_self, List.mem_cons, List.mem_cons]
        grind
      · have hmem : a ∈ rest := (List.mem_cons.mp ha).resolve_left fun heq => hxa heq.symm
        rw [replace_cons_of_ne hxa b rest, List.mem_cons, ih hrest hmem, List.mem_cons]
        grind

theorem nodup_replace {l : List Nat} {a b : Nat} (hl : l.Nodup) (hb : b ∉ l) :
    (l.replace a b).Nodup := by
  induction l with
  | nil => exact List.nodup_nil
  | cons x rest ih =>
      obtain ⟨hx, hrest⟩ := List.nodup_cons.mp hl
      rw [List.mem_cons, not_or] at hb
      by_cases hxa : x = a
      · subst hxa
        rw [List.replace_cons_self]
        exact List.nodup_cons.mpr ⟨hb.2, hrest⟩
      · rw [replace_cons_of_ne hxa b rest]
        refine List.nodup_cons.mpr ⟨fun hmem => ?_, ih hrest hb.2⟩
        by_cases ha : a ∈ rest
        · rcases (mem_replace hrest ha x).mp hmem with heq | hmem
          · exact hb.1 heq.symm
          · exact hx hmem.1
        · rw [List.replace_of_not_mem ha] at hmem
          exact hx hmem

/-! ## The invariant -/

/-- The pool but for the dispatch of its queue; a worker of `dead` may be gone already, and the
tasks of `lost` are still to be settled. -/
structure Core (dead : Nat → Prop) (lost : List Nat) (p : XlsxWorkerPool ω) : Prop where
  size : p.workers.length = poolSize
  nodup : p.workers.Nodup
  below : ∀ w ∈ p.workers, w < p.spawned
  absent : ∀ w, p.spawned ≤ w → p.pendingTasks w = none ∧ p.busy w = false ∧
    p.terminating w = false ∧ p.threads w = .absent
  busy : ∀ w, p.busy w = (p.pendingTasks w).isSome
  pending : ∀ w t, p.pendingTasks w = some t → p.terminating w = false ∧
    (p.threads w).alive = true ∧ (p.threads w).inbox = [t]
  task : ∀ w t, p.pendingTasks w = some t → p.settled t = false ∧ t ∉ p.queue ∧ t < p.nextId
  injective : ∀ w v t, p.pendingTasks w = some t → p.pendingTasks v = some t → w = v
  member : ∀ w, (p.threads w).alive = true → w ∈ p.workers ∧ (p.threads w).exited = false
  inbox : ∀ w, (p.threads w).alive = true → (p.threads w).inbox ≠ [] →
    p.pendingTasks w = none → p.terminating w = true
  live : p.stopped = false → ∀ w ∈ p.workers, ¬ dead w → p.terminating w = false →
    (p.threads w).alive = true ∧ (p.threads w).stopping = false
  terminating : ∀ w, p.terminating w = true → w ∈ p.terminations
  queue : p.queue.Nodup
  queued : ∀ t ∈ p.queue, p.settled t = false ∧ t < p.nextId
  unsettled : ∀ t < p.nextId, p.settled t = false →
    t ∈ p.queue ∨ (∃ w, p.pendingTasks w = some t) ∨ t ∈ lost
  lost : ∀ t ∈ lost, t < p.nextId ∧ t ∉ p.queue ∧ ∀ w, p.pendingTasks w ≠ some t
  record : ∀ t, p.settled t = true ↔ t ∈ p.settlements.map Prod.fst
  known : ∀ t, p.settled t = true → t < p.nextId
  once : (p.settlements.map Prod.fst).Nodup
  closed : p.stopped = true → p.queue = []
  idle : ∀ post ∈ p.posts, post.thread.isIdle = true

/-- No worker is free while a task is queued. -/
def Dispatched (p : XlsxWorkerPool ω) : Prop :=
  p.queue ≠ [] → ∀ w ∈ p.workers, p.busy w = true ∨ p.terminating w = true

structure Ok (p : XlsxWorkerPool ω) : Prop where
  core : p.Core (fun _ => False) []
  dispatched : p.Dispatched

theorem Core.mono {dead dead' : Nat → Prop} {lost : List Nat} (h : p.Core dead lost)
    (hdead : p.stopped = false → ∀ w ∈ p.workers, dead w → dead' w) : p.Core dead' lost :=
  { h with
    live := fun hs w hw hnot => h.live hs w hw fun hd => hnot (hdead hs w hw hd) }

/-! ## Between dispatches -/

variable {w : Nat} {dead : Nat → Prop}

section Core

variable {dead : Nat → Prop} {lost : List Nat}

theorem Core.settle {t : Nat} (h : p.Core dead (t :: lost)) (outcome : Settlement ω) :
    (p.settle t outcome).Core dead lost := by
  obtain ⟨hknown, hqueue, hpending⟩ := h.lost t List.mem_cons_self
  have hlost : ∀ u ∈ lost, u < p.nextId ∧ u ∉ p.queue ∧ ∀ w, p.pendingTasks w ≠ some u :=
    fun u hu => h.lost u (List.mem_cons_of_mem _ hu)
  unfold XlsxWorkerPool.settle
  split
  · rename_i hset
    refine { h with unsettled := fun u hu hunset => ?_, lost := hlost }
    have hne : u ≠ t := by
      rintro rfl
      simp [hset] at hunset
    simpa [hne] using h.unsettled u hu hunset
  · rename_i hset
    have hnew : t ∉ p.settlements.map Prod.fst := fun hmem => hset ((h.record t).mpr hmem)
    refine { h with
      task := ?_, queued := ?_, unsettled := ?_, lost := hlost, record := ?_, known := ?_,
      once := ?_ }
    · intro w u hu
      have hne : u ≠ t := fun heq => hpending w (heq ▸ hu)
      simpa [hne] using h.task w u hu
    · intro u hu
      have hne : u ≠ t := fun heq => hqueue (heq ▸ hu)
      simpa [hne] using h.queued u hu
    · intro u hu hunset
      by_cases hne : u = t
      · simp [hne] at hunset
      · simpa [hne] using h.unsettled u hu (by simpa [hne] using hunset)
    · intro u
      by_cases hne : u = t
      · simp [hne]
      · simpa [hne] using h.record u
    · intro u hu
      by_cases hne : u = t
      · exact hne ▸ hknown
      · exact h.known u (by simpa [hne] using hu)
    · simp only [List.map_append, List.map_cons, List.map_nil]
      exact List.nodup_append.mpr ⟨h.once, List.nodup_singleton t, fun a ha b hb => by
        rintro rfl
        exact hnew (List.mem_singleton.mp hb ▸ ha)⟩

theorem Core.settleTask {task : Option Nat} (h : p.Core dead task.toList)
    (outcome : Settlement ω) : (p.settleTask task outcome).Core dead [] := by
  cases task with
  | none => exact h
  | some t => exact h.settle outcome

theorem Core.clear (thread : WorkerThread) (h : p.Core dead [])
    (halive : thread.alive = true → (p.threads w).alive = true ∧ thread.exited = false)
    (hinbox : thread.alive = true → thread.inbox = (p.threads w).inbox.tail)
    (hlive : thread.alive = true ∧ thread.stopping = (p.threads w).stopping ∨ dead w)
    (hw : (p.threads w).alive = true) :
    (({ p with threads := Function.update p.threads w thread } : XlsxWorkerPool ω).clear w).Core
      dead (p.pendingTasks w).toList := by
  have hmember := h.member w hw
  have hbelow := h.below w hmember.1
  unfold XlsxWorkerPool.clear
  refine { h with
    absent := ?_, busy := ?_, pending := ?_, task := ?_, injective := ?_, member := ?_,
    inbox := ?_, live := ?_, unsettled := ?_, lost := ?_ }
  all_goals simp only [Function.update_apply]
  · intro v hv
    simpa [show v ≠ w by omega] using h.absent v hv
  · intro v
    split
    · rfl
    · exact h.busy v
  · intro v t hv
    split at hv
    · cases hv
    · rename_i hne
      simpa [hne] using h.pending v t hv
  · intro v t hv
    split at hv
    · cases hv
    · exact h.task v t hv
  · intro v u t hv hu
    grind [h.injective v u t]
  · intro v hv
    split at hv
    · rename_i heq
      simpa [heq] using ⟨hmember.1, (halive hv).2⟩
    · rename_i hne
      simpa [hne] using h.member v hv
  · intro v hv hne hnone
    by_cases hvw : v = w
    · subst hvw
      rw [if_pos rfl] at hv hne
      rw [hinbox hv] at hne
      cases hp : p.pendingTasks v with
      | none =>
          refine h.inbox v hw (fun hnil => hne ?_) hp
          rw [hnil]
          rfl
      | some t => exact absurd (by rw [(h.pending v t hp).2.2]; rfl) hne
    · rw [if_neg hvw] at hv hne hnone
      exact h.inbox v hv hne hnone
  · intro hs v hv hdead hterm
    grind [h.live hs v hv hdead hterm]
  · intro t ht hunset
    grind [h.unsettled t ht hunset]
  · intro t ht
    rw [Option.mem_toList] at ht
    have ⟨_, hqueue, hknown⟩ := h.task w t ht
    refine ⟨hknown, hqueue, fun v hv => ?_⟩
    split at hv
    · cases hv
    · rename_i hne
      exact hne (h.injective v w t hv ht)

theorem Core.replace (h : p.Core (fun v => v = w) []) (hw : w ∈ p.workers)
    (halive : (p.threads w).alive = false) : (p.replace w).Core (fun _ => False) [] := by
  have hbelow := h.below w hw
  have habsent := h.absent p.spawned (Nat.le_refl _)
  have hfresh : p.spawned ∉ p.workers := fun hmem => absurd (h.below _ hmem) (Nat.lt_irrefl _)
  have hmem := fun v => mem_replace (b := p.spawned) h.nodup hw v
  unfold XlsxWorkerPool.replace spawn
  refine { h with
    size := ?_, nodup := ?_, below := ?_, absent := ?_, busy := ?_, pending := ?_, task := ?_,
    injective := ?_, member := ?_, inbox := ?_, live := ?_, unsettled := ?_, lost := ?_ }
  all_goals simp only [Function.update_apply]
  · rw [List.length_replace, h.size]
  · exact nodup_replace h.nodup hfresh
  · intro v hv
    rcases (hmem v).mp hv with rfl | ⟨hv, -⟩
    · omega
    · exact Nat.lt_succ_of_lt (h.below v hv)
  · intro v hv
    simpa [show v ≠ p.spawned by omega] using h.absent v (by omega)
  · intro v
    split
    · rename_i heq
      simp [heq, habsent]
    · exact h.busy v
  · intro v t hv
    split at hv
    · cases hv
    · rename_i hne
      simpa [hne] using h.pending v t hv
  · intro v t hv
    split at hv
    · cases hv
    · exact h.task v t hv
  · intro v u t hv hu
    grind [h.injective v u t]
  · intro v hv
    rw [hmem]
    split at hv
    · rename_i heq
      simp [heq, WorkerThread.fresh]
    · rename_i hne
      have ⟨hv', hexited⟩ := h.member v hv
      simp only [hne, if_false]
      refine ⟨.inr ⟨hv', ?_⟩, hexited⟩
      rintro rfl
      simp [halive] at hv
  · intro v hv hne hnone
    split at hne
    · simp [WorkerThread.fresh] at hne
    · rename_i hvs
      simp only [hvs, if_false] at hv hnone
      exact h.inbox v hv hne hnone
  · intro hs v hv _ hterm
    rcases (hmem v).mp hv with rfl | ⟨hv, hvw⟩
    · simp [WorkerThread.fresh]
    · have hne : v ≠ p.spawned := fun heq => hfresh (heq ▸ hv)
      simpa [hne] using h.live hs v hv hvw hterm
  · intro t ht hunset
    rcases h.unsettled t ht hunset with hq | ⟨v, hv⟩ | hl
    · exact .inl hq
    · refine .inr (.inl ⟨v, ?_⟩)
      rw [if_neg, hv]
      rintro rfl
      rw [habsent.1] at hv
      cases hv
    · exact .inr (.inr hl)
  · exact fun t ht => by cases ht

end Core

section Settle

variable (t : Nat) (outcome : Settlement ω) (task : Option Nat)

@[simp] theorem settle_workers : (p.settle t outcome).workers = p.workers := by
  unfold settle
  split <;> rfl

@[simp] theorem settle_stopped : (p.settle t outcome).stopped = p.stopped := by
  unfold settle
  split <;> rfl

@[simp] theorem settle_threads : (p.settle t outcome).threads = p.threads := by
  unfold settle
  split <;> rfl

@[simp] theorem settle_queue : (p.settle t outcome).queue = p.queue := by
  unfold settle
  split <;> rfl

@[simp] theorem settle_busy : (p.settle t outcome).busy = p.busy := by
  unfold settle
  split <;> rfl

@[simp] theorem settle_terminating : (p.settle t outcome).terminating = p.terminating := by
  unfold settle
  split <;> rfl

@[simp] theorem settleTask_workers : (p.settleTask task outcome).workers = p.workers := by
  cases task
  · rfl
  · exact settle_workers _ _

@[simp] theorem settleTask_stopped : (p.settleTask task outcome).stopped = p.stopped := by
  cases task
  · rfl
  · exact settle_stopped _ _

@[simp] theorem settleTask_threads : (p.settleTask task outcome).threads = p.threads := by
  cases task
  · rfl
  · exact settle_threads _ _

end Settle

/-! ## Dispatching -/

theorem Core.assign (h : p.Core (fun _ => False) []) (hs : p.stopped = false) {w t : Nat}
    {rest : List Nat} (hw : w ∈ p.workers) (hbusy : p.busy w = false)
    (hterm : p.terminating w = false) (hqueue : p.queue = t :: rest) :
    (p.assign w t rest).Core (fun _ => False) [] := by
  have ⟨halive, hstopping⟩ := h.live hs w hw id hterm
  have hbelow := h.below w hw
  have hnone : p.pendingTasks w = none := by
    rw [h.busy w] at hbusy
    exact Option.isSome_eq_false_iff.mp hbusy |> Option.isNone_iff_eq_none.mp
  have hinbox : (p.threads w).inbox = [] := by
    by_contra hne
    simp [h.inbox w halive hne hnone] at hterm
  have ⟨ht, htknown⟩ := h.queued t (by simp [hqueue])
  have hnodup : t ∉ rest ∧ rest.Nodup := List.nodup_cons.mp (hqueue ▸ h.queue)
  have hfree : ∀ v, p.pendingTasks v ≠ some t := fun v hv =>
    (h.task v t hv).2.1 (by simp [hqueue])
  have hpost : (⟨w, t, p.threads w⟩ : Post).thread.isIdle = true := by
    simp [WorkerThread.isIdle, halive, hstopping, hinbox]
  unfold XlsxWorkerPool.assign postMessage
  refine { h with
    absent := ?_, busy := ?_, pending := ?_, task := ?_, injective := ?_, member := ?_,
    inbox := ?_, live := ?_, queue := hnodup.2, queued := ?_, unsettled := ?_, lost := ?_,
    closed := ?_, idle := ?_ }
  all_goals simp only [Function.update_apply, halive, if_true, hinbox, List.nil_append]
  · intro v hv
    simpa [show v ≠ w by omega] using h.absent v hv
  · intro v
    split
    · rfl
    · exact h.busy v
  · intro v u hv
    split at hv
    · rename_i heq
      cases hv
      simp [heq, hterm]
    · rename_i hne
      simpa [hne] using h.pending v u hv
  · intro v u hv
    split at hv
    · cases hv
      exact ⟨ht, hnodup.1, htknown⟩
    · have ⟨hset, hq, hknown⟩ := h.task v u hv
      exact ⟨hset, fun hmem => hq (by simp [hqueue, hmem]), hknown⟩
  · intro v u s hv hu
    grind [h.injective v u s]
  · intro v hv
    split at hv
    · rename_i heq
      simpa [heq] using h.member w halive
    · rename_i hne
      simpa [hne] using h.member v hv
  · intro v hv hne hnone
    by_cases hvw : v = w
    · simp [hvw] at hnone
    · simp only [hvw, if_false] at hv hne hnone
      exact h.inbox v hv hne hnone
  · intro _ v hv _ hterm
    by_cases hvw : v = w
    · simp [hvw, hstopping]
    · simpa [hvw] using h.live hs v hv id hterm
  · exact fun u hu => h.queued u (by simp [hqueue, hu])
  · intro u hu hunset
    have := h.unsettled u hu hunset
    grind
  · exact fun u hu => by cases hu
  · exact fun hstop => by simp [hs] at hstop
  · intro post hmem
    rcases List.mem_append.mp hmem with hmem | hmem
    · exact h.idle post hmem
    · exact List.mem_singleton.mp hmem ▸ hpost

theorem Core.dispatchTo {ws : List Nat} (h : p.Core (fun _ => False) []) (hs : p.stopped = false)
    (hws : ws ⊆ p.workers) :
    (dispatchTo ws p).Core (fun _ => False) [] ∧ (dispatchTo ws p).workers = p.workers ∧
      (dispatchTo ws p).terminating = p.terminating ∧
      (∀ v, p.busy v = true → (dispatchTo ws p).busy v = true) ∧
      ((dispatchTo ws p).queue ≠ [] →
        ∀ w ∈ ws, (dispatchTo ws p).busy w = true ∨ p.terminating w = true) := by
  induction ws generalizing p with
  | nil => exact ⟨h, rfl, rfl, fun _ hv => hv, fun _ w hw => by cases hw⟩
  | cons w ws ih =>
      have hw : w ∈ p.workers := hws List.mem_cons_self
      have hws' : ws ⊆ p.workers := fun v hv => hws (List.mem_cons_of_mem _ hv)
      unfold XlsxWorkerPool.dispatchTo
      by_cases hbusy : (p.busy w || p.terminating w) = true
      · rw [if_pos hbusy]
        obtain ⟨hcore, hworkers, hterm, hmono, hserved⟩ := ih h hs hws'
        refine ⟨hcore, hworkers, hterm, hmono, fun hq v hv => ?_⟩
        rcases List.mem_cons.mp hv with rfl | hv
        · rw [Bool.or_eq_true] at hbusy
          exact hbusy.imp_left (hmono v)
        · exact hserved hq v hv
      · rw [if_neg hbusy]
        simp only [Bool.or_eq_true, not_or, Bool.not_eq_true] at hbusy
        cases hqueue : p.queue with
        | nil =>
            simp only [nextTask]
            have heq : ({ p with queue := [] } : XlsxWorkerPool ω) = p := by rw [← hqueue]
            rw [heq]
            exact ⟨h, trivial, trivial, fun _ hv => hv, fun hq => absurd rfl hq⟩
        | cons t rest =>
            have ht := (h.queued t (by simp [hqueue])).1
            simp only [nextTask, ht, Bool.false_eq_true, if_false]
            have hassign := h.assign hs hw hbusy.1 hbusy.2 hqueue
            obtain ⟨hcore, hworkers, hterm, hmono, hserved⟩ := ih hassign hs hws'
            refine ⟨hcore, hworkers, hterm, fun v hv => hmono v ?_, fun hq v hv => ?_⟩
            · simp only [XlsxWorkerPool.assign, postMessage, Function.update_apply]
              split
              · rfl
              · exact hv
            · rcases List.mem_cons.mp hv with rfl | hv
              · exact .inl (hmono v (by simp [XlsxWorkerPool.assign, postMessage]))
              · exact hserved hq v hv

theorem Core.dispatch (h : p.Core (fun _ => False) []) : p.dispatch.Ok := by
  unfold XlsxWorkerPool.dispatch
  cases hs : p.stopped with
  | true => exact ⟨h, fun hq => absurd (h.closed hs) hq⟩
  | false =>
      obtain ⟨hcore, hworkers, hterm, _, hserved⟩ := h.dispatchTo hs (List.Subset.refl _)
      refine ⟨hcore, fun hq w hw => ?_⟩
      simp only [Bool.false_eq_true, if_false] at hq hw ⊢
      rw [hworkers] at hw
      rw [hterm]
      exact hserved hq w hw

/-! ## Events -/

theorem Ok.run (h : p.Ok) (aborted : Bool) : (p.run aborted).2.Ok := by
  unfold XlsxWorkerPool.run
  split_ifs with hs
  · exact h
  · exact h
  have hnew : p.nextId ∉ p.queue := fun hmem =>
    absurd (h.core.queued _ hmem).2 (Nat.lt_irrefl _)
  have hunset : p.settled p.nextId = false := by
    by_contra hset
    exact absurd (h.core.known _ (by simpa using hset)) (Nat.lt_irrefl _)
  refine Core.dispatch ?_
  refine { h.core with
    task := ?_, queue := ?_, queued := ?_, unsettled := ?_, lost := ?_, known := ?_,
    closed := fun hstop => absurd hstop hs }
  · intro w t hw
    have ⟨hset, hq, hknown⟩ := h.core.task w t hw
    refine ⟨hset, fun hmem => ?_, Nat.lt_succ_of_lt hknown⟩
    rcases List.mem_append.mp hmem with hmem | hmem
    · exact hq hmem
    · exact absurd (List.mem_singleton.mp hmem ▸ hknown) (Nat.lt_irrefl _)
  · exact List.nodup_append.mpr ⟨h.core.queue, List.nodup_singleton _, fun a ha b hb => by
      rintro rfl
      exact hnew (List.mem_singleton.mp hb ▸ ha)⟩
  · intro t ht
    rcases List.mem_append.mp ht with ht | ht
    · exact (h.core.queued t ht).imp_right Nat.lt_succ_of_lt
    · rw [List.mem_singleton.mp ht]
      exact ⟨hunset, Nat.lt_succ_self _⟩
  · intro t ht hu
    rcases Nat.lt_succ_iff_lt_or_eq.mp ht with ht | rfl
    · exact (h.core.unsettled t ht hu).imp_left fun hq => List.mem_append_left _ hq
    · exact .inl (by simp)
  · exact fun t ht => by cases ht
  · exact fun t ht => Nat.lt_succ_of_lt (h.core.known t ht)

theorem Ok.message (h : p.Ok) (hw : (p.threads w).isExecuting = true) (answer : Except String ω) :
    ((p.answered w).onMessage w answer).Ok := by
  simp only [WorkerThread.isExecuting, Bool.and_eq_true] at hw
  have hmember := h.core.member w hw.1
  refine Core.dispatch (Core.settleTask (h.core.clear _ ?_ ?_ ?_ hw.1) _)
  · exact fun halive => ⟨halive, hmember.2⟩
  · exact fun _ => rfl
  · exact .inl ⟨hw.1, rfl⟩

theorem Core.ok_of_stopped (h : p.Core dead []) (hs : p.stopped = true) : p.Ok where
  core := h.mono fun hnot => by simp [hs] at hnot
  dispatched hq := absurd (h.closed hs) hq

theorem Ok.error (h : p.Ok) (hw : (p.threads w).alive = true) (message : String) :
    ((p.failed w).onError w message).Ok := by
  have hmember := h.core.member w hw
  have hdead : p.Core (fun v => v = w) [] := h.core.mono fun _ _ _ hfalse => hfalse.elim
  have hcore := Core.settleTask (hdead.clear
    { p.threads w with alive := false, inbox := [] } (by simp) (by simp) (.inr rfl) hw)
    (.rejected (.error message) : Settlement ω)
  unfold onError
  dsimp only
  split
  · rename_i hcond
    refine Core.dispatch (hcore.replace ?_ ?_)
    · simpa [XlsxWorkerPool.clear] using hmember.1
    · simp [XlsxWorkerPool.clear]
  · rename_i hcond
    refine hcore.ok_of_stopped ?_
    simpa [XlsxWorkerPool.clear, failed, hmember.1] using hcond

theorem Ok.exit (h : p.Ok) (hclean : p.CleanExit (.exit w)) (hw : (p.threads w).exited = false) :
    ((p.gone w).onExit w).Ok := by
  obtain ⟨hnone, hallowed⟩ := hclean hw
  have hbusy : p.busy w = false := by rw [h.core.busy w, hnone]; rfl
  have hbelow : w < p.spawned := by
    by_contra hle
    simp [(h.core.absent w (Nat.not_lt.mp hle)).2.2.2, WorkerThread.absent] at hw
  unfold onExit gone
  refine ⟨{ h.core with
    absent := ?_, busy := ?_, pending := ?_, member := ?_, inbox := ?_, live := ?_ }, ?_⟩
  all_goals simp only [Dispatched, Function.update_apply]
  · intro v hv
    simpa [show v ≠ w by omega] using h.core.absent v hv
  · intro v
    split
    · rename_i heq
      simp [heq, hnone]
    · exact h.core.busy v
  · intro v t hv
    have hne : v ≠ w := by
      rintro rfl
      simp [hnone] at hv
    simpa [hne] using h.core.pending v t hv
  · intro v hv
    split at hv
    · cases hv
    · rename_i hne
      simpa [hne] using h.core.member v hv
  · intro v hv hne hpend
    split at hv
    · cases hv
    · rename_i hvw
      simp only [hvw, if_false] at hne
      exact h.core.inbox v hv hne hpend
  · intro hs v hv hdead hterm
    have hne : v ≠ w := by
      rintro rfl
      simp [hs, hterm, hv] at hallowed
    simpa [hne] using h.core.live hs v hv hdead hterm
  · intro hq v hv
    by_cases hvw : v = w
    · subst hvw
      have := h.dispatched hq v hv
      simpa [hbusy] using this
    · simpa [hvw] using h.dispatched hq v hv

theorem Ok.terminated (h : p.Ok) (hw : (p.threads w).exited = true) :
    ({ p with terminations := p.terminations.erase w }.onTerminated w).Ok := by
  have halive : (p.threads w).alive = false := by
    by_contra hne
    simp [(h.core.member w (by simpa using hne)).2] at hw
  have hcore : Core (fun v => v = w) []
      { p with
        terminations := p.terminations.erase w
        terminating := Function.update p.terminating w false } := by
    refine { h.core with absent := ?_, pending := ?_, inbox := ?_, live := ?_, terminating := ?_ }
    all_goals simp only [Function.update_apply]
    · intro v hv
      have ⟨hpend, hbusy, hterm, hthread⟩ := h.core.absent v hv
      refine ⟨hpend, hbusy, ?_, hthread⟩
      split
      · rfl
      · exact hterm
    · intro v t hv
      have ⟨hterm, hrest⟩ := h.core.pending v t hv
      refine ⟨?_, hrest⟩
      split
      · rfl
      · exact hterm
    · intro v hv hne hpend
      have hvw : v ≠ w := by
        rintro rfl
        simp [halive] at hv
      simpa [hvw] using h.core.inbox v hv hne hpend
    · intro hs v hv hvw hterm
      exact h.core.live hs v hv id (by simpa [hvw] using hterm)
    · intro v hv
      split at hv
      · cases hv
      · rename_i hne
        exact (List.mem_erase_of_ne hne).mpr (h.core.terminating v hv)
  unfold onTerminated
  dsimp only
  split
  · rename_i hs
    exact hcore.ok_of_stopped hs
  · rename_i hs
    split
    · rename_i hmem
      exact Core.dispatch (hcore.replace (by simpa using hmem) halive)
    · rename_i hmem
      refine Core.dispatch (hcore.mono fun _ v hv hvw => hmem ?_)
      simpa [hvw] using hvw ▸ hv

theorem terminate_settle (w t : Nat) (outcome : Settlement ω) (p : XlsxWorkerPool ω) :
    { terminate w (p.settle t outcome) with
      terminations := (terminate w (p.settle t outcome)).terminations ++ [w] } =
    settle t outcome
      { p with
        threads := Function.update p.threads w { p.threads w with stopping := true }
        terminations := p.terminations ++ [w] } := by
  unfold settle
  by_cases hset : p.settled t = true
  · simp only [hset, if_true, terminate]
  · simp only [hset, terminate]
    rfl

theorem Core.abandon (h : p.Core (fun _ => False) []) {w t : Nat} (hw : p.pendingTasks w = some t) :
    Core (fun _ => False) [t]
      { p.clear w with
        terminating := Function.update p.terminating w true
        threads := Function.update p.threads w { p.threads w with stopping := true }
        terminations := p.terminations ++ [w] } := by
  have ⟨_, halive, hinbox⟩ := h.pending w t hw
  have hmember := h.member w halive
  have hbelow := h.below w hmember.1
  have ⟨_, hqueue, hknown⟩ := h.task w t hw
  unfold XlsxWorkerPool.clear
  refine { h with
    absent := ?_, busy := ?_, pending := ?_, task := ?_, injective := ?_, member := ?_,
    inbox := ?_, live := ?_, terminating := ?_, unsettled := ?_, lost := ?_ }
  all_goals simp only [Function.update_apply]
  · intro v hv
    simpa [show v ≠ w by omega] using h.absent v hv
  · intro v
    split
    · rfl
    · exact h.busy v
  · intro v u hv
    split at hv
    · cases hv
    · rename_i hne
      simpa [hne] using h.pending v u hv
  · intro v u hv
    split at hv
    · cases hv
    · exact h.task v u hv
  · intro v u s hv hu
    grind [h.injective v u s]
  · intro v hv
    split at hv
    · rename_i heq
      simpa [heq] using hmember
    · rename_i hne
      simpa [hne] using h.member v hv
  · intro v hv hne hpend
    by_cases hvw : v = w
    · simp [hvw]
    · simp only [hvw, if_false] at hv hne hpend ⊢
      exact h.inbox v hv hne hpend
  · intro hs v hv _ hterm
    by_cases hvw : v = w
    · simp [hvw] at hterm
    · simp only [hvw, if_false] at hterm ⊢
      exact h.live hs v hv id hterm
  · intro v hv
    by_cases hvw : v = w
    · simp [hvw]
    · simp only [hvw, if_false] at hv
      exact List.mem_append_left _ (h.terminating v hv)
  · intro u hu hunset
    have := h.unsettled u hu hunset
    grind
  · intro u hu
    obtain rfl := List.mem_singleton.mp hu
    refine ⟨hknown, hqueue, fun v hv => ?_⟩
    split at hv
    · cases hv
    · rename_i hne
      exact hne (h.injective v w u hv hw)

theorem Ok.abort (h : p.Ok) (t : Nat) : (p.onAbort t).Ok := by
  unfold onAbort
  split
  · rename_i hmem
    have hmem : t ∈ p.queue := by simpa using hmem
    have hcore : Core (fun _ => False) [t] { p with queue := p.queue.erase t } := by
      refine { h.core with
        task := ?_, queue := h.core.queue.erase t, queued := ?_, unsettled := ?_, lost := ?_,
        closed := ?_ }
      · intro w u hw
        have ⟨hset, hq, hknown⟩ := h.core.task w u hw
        exact ⟨hset, fun hin => hq (List.mem_of_mem_erase hin), hknown⟩
      · exact fun u hu => h.core.queued u (List.mem_of_mem_erase hu)
      · intro u hu hunset
        by_cases hut : u = t
        · exact .inr (.inr (by simp [hut]))
        · exact (h.core.unsettled u hu hunset).imp
            (fun hq => (List.mem_erase_of_ne hut).mpr hq) fun hr => hr.imp_right (by simp)
      · intro u hu
        obtain rfl := List.mem_singleton.mp hu
        refine ⟨(h.core.queued u hmem).2, fun hin => ?_, fun w hw => (h.core.task w u hw).2.1 hmem⟩
        exact absurd rfl ((List.Nodup.mem_erase_iff h.core.queue).mp hin).1
      · intro hs
        simp [h.core.closed hs] at hmem
    refine ⟨hcore.settle _, fun hq w hw => ?_⟩
    have hne : p.queue ≠ [] := List.ne_nil_of_mem hmem
    simpa using h.dispatched hne w (by simpa using hw)
  · rename_i hmem
    split
    · exact h
    · rename_i w hfind
      have hw : p.pendingTasks w = some t := by simpa using List.find?_some hfind
      dsimp only
      rw [terminate_settle]
      refine ⟨(h.core.abandon hw).settle _, fun hq v hv => ?_⟩
      simp only [settle_queue, settle_workers, settle_busy, settle_terminating,
        XlsxWorkerPool.clear, Function.update_apply] at hq hv ⊢
      by_cases hvw : v = w
      · exact .inr (if_pos hvw)
      · simpa [hvw] using h.dispatched hq v hv

theorem Core.terminate (h : p.Core dead []) (hs : p.stopped = true) (hw : w ∈ p.workers) :
    (p.terminate w).Core dead [] := by
  have hbelow := h.below w hw
  unfold XlsxWorkerPool.terminate
  refine { h with absent := ?_, pending := ?_, member := ?_, inbox := ?_, live := ?_ }
  all_goals simp only [Function.update_apply]
  · intro v hv
    simpa [show v ≠ w by omega] using h.absent v hv
  · intro v t hv
    have := h.pending v t hv
    grind
  · intro v hv
    have := h.member v
    grind
  · intro v hv hne hpend
    have := h.inbox v
    grind
  · exact fun hnot => by simp [hs] at hnot

theorem Core.settleAll {dead : Nat → Prop} {lost : List Nat} (h : p.Core dead lost)
    (outcome : Settlement ω) :
    (lost.foldl (fun q t => q.settle t outcome) p).Core dead [] ∧
      (lost.foldl (fun q t => q.settle t outcome) p).stopped = p.stopped := by
  induction lost generalizing p with
  | nil => exact ⟨h, rfl⟩
  | cons t rest ih =>
      obtain ⟨hcore, hstopped⟩ := ih (h.settle outcome)
      exact ⟨hcore, hstopped.trans (settle_stopped _ _)⟩

theorem Core.terminateAll {dead : Nat → Prop} {ws : List Nat} (h : p.Core dead [])
    (hs : p.stopped = true) (hws : ws ⊆ p.workers) :
    (ws.foldl (fun q w => q.terminate w) p).Core dead [] ∧
      (ws.foldl (fun q w => q.terminate w) p).stopped = true := by
  induction ws generalizing p with
  | nil => exact ⟨h, hs⟩
  | cons w rest ih =>
      exact ih (h.terminate hs (hws List.mem_cons_self)) hs fun v hv =>
        hws (List.mem_cons_of_mem _ hv)

theorem Ok.moduleDestroy (h : p.Ok) : p.onModuleDestroy.Ok := by
  have hcore : Core (fun _ => False) p.queue { p with stopped := true, queue := [] } := by
    refine { h.core with
      task := ?_, live := ?_, queue := List.nodup_nil, queued := ?_, unsettled := ?_,
      lost := ?_, closed := fun _ => rfl }
    · intro w t hw
      have ⟨hset, _, hknown⟩ := h.core.task w t hw
      exact ⟨hset, by simp, hknown⟩
    · intro hnot
      cases hnot
    · intro t ht
      cases ht
    · intro t ht hunset
      have := h.core.unsettled t ht hunset
      grind
    · intro t ht
      refine ⟨(h.core.queued t ht).2, by simp, fun w hw => (h.core.task w t hw).2.1 ht⟩
  obtain ⟨hsettled, hstopped⟩ :=
    hcore.settleAll (.rejected (.error "Excel 工作池已关闭") : Settlement ω)
  obtain ⟨hterminated, hstopped⟩ := hsettled.terminateAll hstopped (List.Subset.refl _)
  exact hterminated.ok_of_stopped hstopped

theorem Ok.step (h : p.Ok) {e : PoolEvent ω} (he : p.CleanExit e) : (p.step e).Ok := by
  cases e with
  | run aborted => exact h.run aborted
  | abort t => exact h.abort t
  | message w answer =>
      simp only [XlsxWorkerPool.step]
      split
      · rename_i hw
        exact h.message hw answer
      · exact h
  | error w message =>
      simp only [XlsxWorkerPool.step]
      split
      · rename_i hw
        exact h.error hw message
      · exact h
  | exit w =>
      simp only [XlsxWorkerPool.step]
      split
      · exact h
      · rename_i hw
        exact h.exit he (by simpa using hw)
  | terminated w =>
      simp only [XlsxWorkerPool.step]
      split
      · rename_i hw
        rw [Bool.and_eq_true] at hw
        exact h.terminated hw.2
      · exact h
  | moduleDestroy => exact h.moduleDestroy

theorem threads_init (w : Nat) :
    (init : XlsxWorkerPool ω).threads w = if w < 2 then .fresh else .absent := by
  show Function.update (Function.update (fun _ => WorkerThread.absent) 0 .fresh) 1 .fresh w = _
  simp only [Function.update_apply]
  grind

theorem pendingTasks_init (w : Nat) : (init : XlsxWorkerPool ω).pendingTasks w = none := by
  show Function.update (Function.update (fun _ => none) 0 none) 1 none w = _
  simp only [Function.update_apply]
  grind

theorem ok_init : (init : XlsxWorkerPool ω).Ok where
  core := {
    size := rfl
    nodup := List.nodup_range (n := 2)
    below := fun w hw => List.mem_range.mp (show w ∈ List.range 2 from hw)
    absent := fun w hw => by
      refine ⟨pendingTasks_init w, rfl, rfl, ?_⟩
      rw [threads_init, if_neg (show ¬ w < 2 from Nat.not_lt.mpr hw)]
    busy := fun w => by
      rw [pendingTasks_init]
      rfl
    pending := fun w t hw => by simp [pendingTasks_init] at hw
    task := fun w t hw => by simp [pendingTasks_init] at hw
    injective := fun w v t hw => by simp [pendingTasks_init] at hw
    member := fun w hw => by
      rw [threads_init] at hw ⊢
      by_cases hlt : w < 2
      · rw [if_pos hlt]
        exact ⟨(by simpa using hlt : w ∈ List.range 2), rfl⟩
      · rw [if_neg hlt] at hw
        cases hw
    inbox := fun w _ hne _ => by
      rw [threads_init] at hne
      split at hne <;> exact absurd rfl hne
    live := fun _ w hw _ _ => by
      rw [threads_init, if_pos (List.mem_range.mp (show w ∈ List.range 2 from hw))]
      exact ⟨rfl, rfl⟩
    terminating := fun w hw => by cases hw
    queue := List.nodup_nil
    queued := fun t ht => by cases ht
    unsettled := fun t ht => absurd ht (Nat.not_lt_zero t)
    lost := fun t ht => by cases ht
    record := fun t => iff_of_false Bool.false_ne_true List.not_mem_nil
    known := fun t ht => by cases ht
    once := List.nodup_nil
    closed := fun _ => rfl
    idle := fun post hpost => by cases hpost }
  dispatched hq := absurd rfl hq

/-! ## Runs -/

theorem Ok.outstanding (h : p.Ok) {w t : Nat} (hw : p.pendingTasks w = some t) :
    w < p.spawned ∧ (p.threads w).isOutstanding = true := by
  have ⟨_, halive, hinbox⟩ := h.core.pending w t hw
  refine ⟨h.core.below w (h.core.member w halive).1, ?_⟩
  simp [WorkerThread.isOutstanding, WorkerThread.isExecuting, halive, hinbox]

theorem Ok.not_pending (h : p.Ok) (hrest : p.AtRest) (w t : Nat) : p.pendingTasks w ≠ some t := by
  intro hw
  have ⟨hbelow, hout⟩ := h.outstanding hw
  simp [hrest.2 w hbelow] at hout

theorem Ok.queue_nil (h : p.Ok) (hrest : p.AtRest) : p.queue = [] := by
  by_contra hq
  obtain ⟨w, hw⟩ := List.exists_mem_of_length_pos (show 0 < p.workers.length by
    rw [h.core.size]; decide)
  rcases h.dispatched hq w hw with hbusy | hterm
  · rw [h.core.busy w] at hbusy
    obtain ⟨t, ht⟩ := Option.isSome_iff_exists.mp hbusy
    exact h.not_pending hrest w t ht
  · have hmem := h.core.terminating w hterm
    rw [hrest.1] at hmem
    cases hmem

theorem Ok.serves (h : p.Ok) : p.Serves where
  once := h.core.once
  idle := h.core.idle
  all hrest t ht := by
    rw [← h.core.record t]
    by_contra hunset
    rcases h.core.unsettled t ht (by simpa using hunset) with hq | ⟨w, hw⟩ | hlost
    · simp [h.queue_nil hrest] at hq
    · exact h.not_pending hrest w t hw
    · cases hlost
  bounded := by
    have hsub : p.executing ⊆ p.workers := by
      intro w hw
      have hexec := (List.mem_filter.mp hw).2
      rw [WorkerThread.isExecuting, Bool.and_eq_true] at hexec
      exact (h.core.member w hexec.1).1
    have hnodup : p.executing.Nodup := List.nodup_range.filter _
    exact h.core.size ▸ (List.subperm_of_subset hnodup hsub).length_le

def CleanStep (p q : XlsxWorkerPool ω) : Prop := ∃ e, p.CleanExit e ∧ q = p.step e

/-- As long as no worker exits out of turn the pool serves its tasks. -/
theorem serves_of_cleanSteps (h : Relation.ReflTransGen CleanStep init p) : p.Serves := by
  refine Ok.serves ?_
  induction h with
  | refl => exact ok_init
  | tail _ hstep ih =>
      obtain ⟨e, he, rfl⟩ := hstep
      exact ih.step he

/-- A worker answers the one task there is. -/
theorem serves_of_answer : Serves (runEvents (init : XlsxWorkerPool Unit)
    [.run false, .message 0 (.ok ())]) :=
  serves_of_cleanSteps
    (.tail (.tail .refl ⟨.run false, trivial, rfl⟩) ⟨.message 0 (.ok ()), trivial, rfl⟩)

/-- A task that is executing when the module is destroyed, or whose worker just exits, is never
settled; and the next task goes to the worker that is gone. -/
theorem task_left_behind :
    ¬ Serves (runEvents (init : XlsxWorkerPool Unit)
      [.run false, .moduleDestroy, .exit 0, .exit 1]) ∧
    ¬ Serves (runEvents (init : XlsxWorkerPool Unit) [.run false, .exit 0]) ∧
    ¬ Serves (runEvents (init : XlsxWorkerPool Unit) [.exit 0, .run false]) := by
  refine ⟨fun h => ?_, fun h => ?_, fun h => ?_⟩
  · exact absurd (h.all (by decide) 0 (by decide)) (by decide)
  · exact absurd (h.all (by decide) 0 (by decide)) (by decide)
  · exact absurd (h.idle ⟨0, 0, ⟨false, true, false, []⟩⟩ (by decide)) (by decide)

end XlsxWorkerPool

end Wbme.Fin

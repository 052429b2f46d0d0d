import Wbme.Contracts
import Wbme.Lib.Along
import Wbme.Lib.Table

/-! # Aggregated error logs

Every service writes its failures into one table. While a row of a fingerprint and a five-minute
bucket is pending, a failure of the same kind counts on it; an administrator closes the row
once, and the next failure begins another one.
-/

namespace Wbme.Logging

open Lib

inductive LogLevel where
  | info
  | warn
  | error
  | critical
deriving DecidableEq

inductive ErrorStatus where
  | pending
  | handled
  | ignored
deriving DecidableEq

/-- What the upsert is given. Its callers take the bucket from `occurredAt`. -/
structure UpsertErrorLogInput where
  level : LogLevel
  service : String
  source : String
  errorCategory : String
  deployCommit : String
  fingerprint : String
  occurredAt : Int
  requestId : Option String
  sample : String

structure ErrorLog where
  level : LogLevel
  service : String
  source : String
  errorCategory : String
  deployCommit : String
  fingerprint : String
  bucketStart : Int
  firstSeenAt : Int
  lastSeenAt : Int
  occurrenceCount : Int
  firstRequestId : Option String
  lastRequestId : Option String
  sample : String
  status : ErrorStatus
  handledBy : Option Nat
  handledAt : Option Int
  remark : Option String
deriving DecidableEq

def errorLogBucketMinutes : Int := 5

/-- The begin of the bucket of a time in milliseconds. -/
def bucketStart (date : Int) : Int :=
  let bucketMs := errorLogBucketMinutes * 60 * 1000
  date / bucketMs * bucketMs

/-- The key of the partial unique index, which has an entry for the pending rows only. -/
def ErrorLog.conflicts (r : ErrorLog) (fingerprint : String) (bucket : Int) : Bool :=
  r.status == .pending && r.fingerprint == fingerprint && r.bucketStart == bucket

/-- The assignments of `DO UPDATE`. -/
def ErrorLog.recurs (input : UpsertErrorLogInput) (r : ErrorLog) : ErrorLog :=
  { r with
    occurrenceCount := r.occurrenceCount + 1
    lastSeenAt := input.occurredAt
    lastRequestId := input.requestId }

/-- The table with the sequence of its ids. `writes` is read by no statement: it says which row
each applied write was counted in. -/
structure ErrorLogs where
  rows : Table ErrorLog
  nextId : Nat
  writes : List (Nat × UpsertErrorLogInput)

namespace ErrorLogs

def empty : ErrorLogs := ⟨.empty, 1, []⟩

/-- The pending row that an insert conflicts with. -/
def conflicting (s : ErrorLogs) (input : UpsertErrorLogInput) : Option (Nat × ErrorLog) :=
  (s.rows.select fun _ r => r.conflicts input.fingerprint (bucketStart input.occurredAt)).head?

/-- The writes counted in a row, oldest first. -/
def countedIn (s : ErrorLogs) (id : Nat) : List UpsertErrorLogInput :=
  (s.writes.filter fun w => w.1 == id).map (·.2)

end ErrorLogs

section Statements

variable (desensitizeErrorSample : String → String)

/-- The row that an insert writes. -/
def newErrorLog (input : UpsertErrorLogInput) : ErrorLog where
  level := input.level
  service := input.service
  source := input.source
  errorCategory := input.errorCategory
  deployCommit := input.deployCommit
  fingerprint := input.fingerprint
  bucketStart := bucketStart input.occurredAt
  firstSeenAt := input.occurredAt
  lastSeenAt := input.occurredAt
  occurrenceCount := 1
  firstRequestId := input.requestId
  lastRequestId := input.requestId
  sample := desensitizeErrorSample input.sample
  status := .pending
  handledBy := none
  handledAt := none
  remark := none

/-- `INSERT … ON CONFLICT … DO UPDATE`. An id is drawn also where the row is there already. -/
def upsertErrorLog (input : UpsertErrorLogInput) (s : ErrorLogs) : ErrorLogs :=
  match s.conflicting input with
  | some (id, _) =>
      { rows := s.rows.update id (.recurs input)
        nextId := s.nextId + 1
        writes := s.writes ++ [(id, input)] }
  | none =>
      { rows := s.rows.insert s.nextId (newErrorLog desensitizeErrorSample input)
        nextId := s.nextId + 1
        writes := s.writes ++ [(s.nextId, input)] }

inductive Disposal where
  | handled
  | ignored

def Disposal.status : Disposal → ErrorStatus
  | .handled => .handled
  | .ignored => .ignored

/-- The update of a row that is still pending; where there is none the request conflicts. -/
def disposeError (id operatorId : Nat) (status : Disposal) (remark : Option String) (now : Int)
    (s : ErrorLogs) : Except ErrorCode ErrorLogs :=
  let chosen := fun i (r : ErrorLog) => i == id && r.status == .pending
  if (s.rows.select chosen).isEmpty then .error .conflict
  else .ok { s with rows := s.rows.updateMany chosen fun r =>
    { r with
      status := status.status
      handledBy := some operatorId
      handledAt := some now
      remark } }

inductive LogEvent where
  | write (input : UpsertErrorLogInput)
  | dispose (id operatorId : Nat) (status : Disposal) (remark : Option String) (now : Int)

/-- One applied statement. Writes that fail or time out before they are applied change nothing
and have no event. -/
def step (s : ErrorLogs) : LogEvent → ErrorLogs
  | .write input => upsertErrorLog desensitizeErrorSample input s
  | .dispose id operatorId status remark now =>
      match disposeError id operatorId status remark now s with
      | .ok s' => s'
      | .error _ => s

def run (events : List LogEvent) : ErrorLogs := events.foldl (step desensitizeErrorSample) .empty

/-! ## What the table says about the writes -/

/-- What a row says of the writes counted in it: the first one's sample, time and request, the
last one's time, their number. -/
structure Tells (r : ErrorLog) (counted : List UpsertErrorLogInput) : Prop where
  first : ∃ first rest, counted = first :: rest ∧ r.firstSeenAt = first.occurredAt ∧
    r.firstRequestId = first.requestId ∧ r.sample = desensitizeErrorSample first.sample
  last : ∃ before last, counted = before ++ [last] ∧ r.lastSeenAt = last.occurredAt ∧
    r.lastRequestId = last.requestId
  count : r.occurrenceCount = counted.length
  kind : ∀ e ∈ counted, r.fingerprint = e.fingerprint ∧ r.bucketStart = bucketStart e.occurredAt

structure Aggregated (s : ErrorLogs) : Prop where
  fresh : ∀ i r, s.rows.find? i = some r → i < s.nextId
  written : ∀ w ∈ s.writes, w.1 < s.nextId
  onePending : ∀ i j r r', s.rows.find? i = some r → s.rows.find? j = some r' →
    r.status = .pending → r'.status = .pending → r.fingerprint = r'.fingerprint →
    r.bucketStart = r'.bucketStart → i = j
  counts : s.rows.total (fun _ r => r.occurrenceCount) = s.writes.length
  tells : ∀ i r, s.rows.find? i = some r → Tells desensitizeErrorSample r (s.countedIn i)

/-- Every row ends at the latest of its writes, and does not begin after that. -/
def TimesRight (s : ErrorLogs) : Prop :=
  ∀ i r, s.rows.find? i = some r → r.firstSeenAt ≤ r.lastSeenAt ∧
    (∃ e ∈ s.countedIn i, e.occurredAt = r.lastSeenAt) ∧
    ∀ e ∈ s.countedIn i, e.occurredAt ≤ r.lastSeenAt

def DisposedKept (s s' : ErrorLogs) : Prop :=
  ∀ i r, s.rows.find? i = some r → r.status ≠ .pending → s'.rows.find? i = some r

/-- The law of the aggregation: it holds in every state of the run, and what a state of it shows
as closed is the same at the end. -/
def AggregationLaw (events : List LogEvent) : Prop :=
  ∀ fs gs, events = fs ++ gs →
    Aggregated desensitizeErrorSample (run desensitizeErrorSample fs) ∧
    TimesRight (run desensitizeErrorSample fs) ∧
    DisposedKept (run desensitizeErrorSample fs) (run desensitizeErrorSample events)

end Statements

/-- A write that a pending row takes in did not occur before the row's last one. -/
def timely (s : ErrorLogs) : LogEvent → Bool
  | .write input =>
      match s.conflicting input with
      | some (_, r) => r.lastSeenAt ≤ input.occurredAt
      | none => true
  | .dispose .. => true

/-! ## Single statements -/

variable {input : UpsertErrorLogInput} {r : ErrorLog}

namespace ErrorLogs

variable {s : ErrorLogs}

theorem find?_of_conflicting {id : Nat} (h : s.conflicting input = some (id, r)) :
    s.rows.find? id = some r ∧
      r.conflicts input.fingerprint (bucketStart input.occurredAt) = true :=
  Table.mem_select.mp (List.mem_of_mem_head? (Option.mem_def.mpr h))

theorem conflicts_of_conflicting (h : s.conflicting input = none) {i : Nat}
    (hr : s.rows.find? i = some r) :
    r.conflicts input.fingerprint (bucketStart input.occurredAt) = false := by
  have hnil := List.head?_eq_none_iff.mp h
  rw [← Bool.not_eq_true]
  intro hc
  have hmem : (i, r) ∈ s.rows.select
      fun _ r => r.conflicts input.fingerprint (bucketStart input.occurredAt) :=
    Table.mem_select.mpr ⟨hr, hc⟩
  rw [hnil] at hmem
  exact List.not_mem_nil hmem

end ErrorLogs

theorem ErrorLog.conflicts_iff {fingerprint : String} {bucket : Int} :
    r.conflicts fingerprint bucket = true ↔
      r.status = .pending ∧ r.fingerprint = fingerprint ∧ r.bucketStart = bucket := by
  simp [ErrorLog.conflicts, and_assoc]

variable {desensitizeErrorSample : String → String} {s : ErrorLogs} {e : LogEvent}
  {events : List LogEvent}

theorem tells_newErrorLog (input : UpsertErrorLogInput) :
    Tells desensitizeErrorSample (newErrorLog desensitizeErrorSample input) [input] where
  first := ⟨input, [], rfl, rfl, rfl, rfl⟩
  last := ⟨[], input, rfl, rfl, rfl⟩
  count := rfl
  kind := by
    intro e he
    obtain rfl := List.mem_singleton.mp he
    exact ⟨rfl, rfl⟩

theorem Tells.recurs {counted : List UpsertErrorLogInput}
    (h : Tells desensitizeErrorSample r counted)
    (hc : r.conflicts input.fingerprint (bucketStart input.occurredAt) = true) :
    Tells desensitizeErrorSample (r.recurs input) (counted ++ [input]) where
  first := by
    obtain ⟨first, rest, rfl, hf⟩ := h.first
    exact ⟨first, rest ++ [input], rfl, hf⟩
  last := ⟨counted, input, rfl, rfl, rfl⟩
  count := by simp [ErrorLog.recurs, h.count]
  kind := by
    intro e he
    rcases List.mem_append.mp he with he | he
    · exact h.kind e he
    · obtain rfl := List.mem_singleton.mp he
      exact (ErrorLog.conflicts_iff.mp hc).2

theorem Aggregated.countedIn_nextId (h : Aggregated desensitizeErrorSample s) :
    s.countedIn s.nextId = [] := by
  have hnone : s.writes.filter (fun w => w.1 == s.nextId) = [] := by
    refine List.filter_eq_nil_iff.mpr fun w hw => ?_
    have := h.written w hw
    simp
    omega
  rw [ErrorLogs.countedIn, hnone, List.map_nil]

theorem Aggregated.find?_nextId (h : Aggregated desensitizeErrorSample s) :
    s.rows.find? s.nextId = none := by
  cases hf : s.rows.find? s.nextId with
  | none => rfl
  | some r => exact absurd (h.fresh _ _ hf) (Nat.lt_irrefl _)

/-! ## What a write does -/

variable (desensitizeErrorSample) in
theorem find?_upsert (s : ErrorLogs) (input : UpsertErrorLogInput) :
    ∃ id r, (∀ i, (upsertErrorLog desensitizeErrorSample input s).rows.find? i =
        if i = id then some r else s.rows.find? i) ∧
      (upsertErrorLog desensitizeErrorSample input s).nextId = s.nextId + 1 ∧
      (upsertErrorLog desensitizeErrorSample input s).writes = s.writes ++ [(id, input)] ∧
      ((∃ r₀, s.conflicting input = some (id, r₀) ∧ s.rows.find? id = some r₀ ∧
          r₀.conflicts input.fingerprint (bucketStart input.occurredAt) = true ∧
          r = r₀.recurs input) ∨
        (s.conflicting input = none ∧ id = s.nextId ∧
          r = newErrorLog desensitizeErrorSample input)) := by
  unfold upsertErrorLog
  cases hc : s.conflicting input with
  | none =>
      exact ⟨s.nextId, _, fun i => Table.find?_insert .., rfl, rfl, .inr ⟨rfl, rfl, rfl⟩⟩
  | some p =>
      obtain ⟨id, r₀⟩ := p
      obtain ⟨hf, hk⟩ := ErrorLogs.find?_of_conflicting hc
      refine ⟨id, r₀.recurs input, fun i => ?_, rfl, rfl, .inl ⟨r₀, rfl, hf, hk, rfl⟩⟩
      show (s.rows.update id (ErrorLog.recurs input)).find? i = _
      by_cases hi : i = id
      · subst hi
        rw [Table.find?_update_of_find? hf, if_pos rfl]
      · rw [Table.find?_update_ne _ _ hi, if_neg hi]

theorem countedIn_upsert {s s' : ErrorLogs} {id : Nat} (h : s'.writes = s.writes ++ [(id, input)])
    (i : Nat) : s'.countedIn i = s.countedIn i ++ (if id = i then [input] else []) := by
  by_cases hi : id = i <;> simp [ErrorLogs.countedIn, h, hi]

theorem Aggregated.upsert (h : Aggregated desensitizeErrorSample s)
    (input : UpsertErrorLogInput) :
    Aggregated desensitizeErrorSample (upsertErrorLog desensitizeErrorSample input s) := by
  obtain ⟨id, r, hrows, hnext, hwrites, hcase⟩ := find?_upsert desensitizeErrorSample s input
  have hkey : r.status = .pending ∧ r.fingerprint = input.fingerprint ∧
      r.bucketStart = bucketStart input.occurredAt := by
    rcases hcase with ⟨r₀, -, -, hk, rfl⟩ | ⟨-, -, rfl⟩
    · exact ErrorLog.conflicts_iff.mp hk
    · exact ⟨rfl, rfl, rfl⟩
  -- another pending row of the key would have been the one that the write is counted in
  have hother : ∀ j r', j ≠ id → s.rows.find? j = some r' →
      r'.conflicts input.fingerprint (bucketStart input.occurredAt) = false := by
    intro j r' hj hr'
    rcases hcase with ⟨r₀, -, hf, hk, -⟩ | ⟨hc, -, -⟩
    · rw [← Bool.not_eq_true]
      intro hc
      obtain ⟨hp, hfp, hb⟩ := ErrorLog.conflicts_iff.mp hc
      obtain ⟨hp₀, hfp₀, hb₀⟩ := ErrorLog.conflicts_iff.mp hk
      exact hj (h.onePending j id r' r₀ hr' hf hp hp₀ (hfp.trans hfp₀.symm) (hb.trans hb₀.symm))
    · exact ErrorLogs.conflicts_of_conflicting hc hr'
  have hid : id ≤ s.nextId := by
    rcases hcase with ⟨r₀, -, hf, -, -⟩ | ⟨-, rfl, -⟩
    · exact Nat.le_of_lt (h.fresh _ _ hf)
    · exact Nat.le_refl _
  constructor
  case fresh =>
    intro i r' hi
    rw [hrows] at hi
    rw [hnext]
    by_cases hid' : i = id
    · omega
    · rw [if_neg hid'] at hi
      exact Nat.lt_succ_of_lt (h.fresh i r' hi)
  case written =>
    intro w hw
    rw [hwrites] at hw
    rw [hnext]
    rcases List.mem_append.mp hw with hw | hw
    · exact Nat.lt_succ_of_lt (h.written w hw)
    · obtain rfl := List.mem_singleton.mp hw
      exact Nat.lt_succ_of_le hid
  case onePending =>
    intro i j r₁ r₂ h₁ h₂ p₁ p₂ hf hb
    rw [hrows] at h₁ h₂
    by_cases hi : i = id <;> by_cases hj : j = id
    · rw [hi, hj]
    · rw [if_pos hi] at h₁
      rw [if_neg hj] at h₂
      obtain rfl := Option.some.inj h₁
      have := hother j r₂ hj h₂
      rw [← Bool.not_eq_true, ErrorLog.conflicts_iff] at this
      exact absurd ⟨p₂, hf.symm.trans hkey.2.1, hb.symm.trans hkey.2.2⟩ this
    · rw [if_neg hi] at h₁
      rw [if_pos hj] at h₂
      obtain rfl := Option.some.inj h₂
      have := hother i r₁ hi h₁
      rw [← Bool.not_eq_true, ErrorLog.conflicts_iff] at this
      exact absurd ⟨p₁, hf.trans hkey.2.1, hb.trans hkey.2.2⟩ this
    · rw [if_neg hi] at h₁
      rw [if_neg hj] at h₂
      exact h.onePending i j r₁ r₂ h₁ h₂ p₁ p₂ hf hb
  case counts =>
    have hlen : ((s.writes ++ [(id, input)]).length : Int) = s.writes.length + 1 := by simp
    rw [hwrites, hlen, ← h.counts]
    unfold upsertErrorLog
    rcases hcase with ⟨r₀, hc, hf, -, -⟩ | ⟨hc, -, -⟩
    · rw [hc]
      show (s.rows.update id (ErrorLog.recurs input)).total _ = _
      rw [Table.total_update hf]
      simp only [ErrorLog.recurs]
      omega
    · rw [hc]
      show (s.rows.insert s.nextId _).total _ = _
      rw [Table.total_insert h.find?_nextId]
      rfl
  case tells =>
    intro i r' hi
    rw [hrows] at hi
    rw [countedIn_upsert hwrites]
    by_cases hi' : i = id
    · subst hi'
      rw [if_pos rfl] at hi
      obtain rfl := Option.some.inj hi
      rw [if_pos rfl]
      rcases hcase with ⟨r₀, -, hf, hk, rfl⟩ | ⟨-, rfl, rfl⟩
      · exact (h.tells i r₀ hf).recurs hk
      · rw [h.countedIn_nextId]
        exact tells_newErrorLog input
    · rw [if_neg hi'] at hi
      rw [if_neg (Ne.symm hi'), List.append_nil]
      exact h.tells i r' hi

/-! ## What a disposal does -/

/-- The rows behind a disposal: what the request names is closed if it was pending, and nothing
else of a row is touched. -/
theorem find?_dispose (s : ErrorLogs) (id operatorId : Nat) (status : Disposal)
    (remark : Option String) (now : Int) (i : Nat) :
    (step desensitizeErrorSample s (.dispose id operatorId status remark now)).rows.find? i =
      (s.rows.find? i).map fun r =>
        if i == id && r.status == .pending then
          { r with
            status := status.status
            handledBy := some operatorId
            handledAt := some now
            remark }
        else r := by
  unfold step disposeError
  by_cases hsel : (s.rows.select fun i r => i == id && r.status == .pending).isEmpty
  · simp only [hsel, if_true]
    cases hf : s.rows.find? i with
    | none => rfl
    | some r =>
        have hno : (i == id && r.status == .pending) = false := by
          rw [← Bool.not_eq_true]
          intro hc
          have hmem : (i, r) ∈ s.rows.select fun i r => i == id && r.status == .pending :=
            Table.mem_select.mpr ⟨hf, hc⟩
          rw [List.isEmpty_iff.mp hsel] at hmem
          exact List.not_mem_nil hmem
        rw [Option.map_some, hno]
        rfl
  · simp only [hsel, Bool.false_eq_true, if_false]
    exact Table.find?_updateMany ..

variable (desensitizeErrorSample) in
theorem dispose_frame (s : ErrorLogs) (id operatorId : Nat) (status : Disposal)
    (remark : Option String) (now : Int) :
    (step desensitizeErrorSample s (.dispose id operatorId status remark now)).nextId = s.nextId ∧
      (step desensitizeErrorSample s (.dispose id operatorId status remark now)).writes =
        s.writes := by
  unfold step disposeError
  by_cases hsel : (s.rows.select fun i r => i == id && r.status == .pending).isEmpty
  · simp only [hsel, if_true, and_self]
  · simp only [hsel, Bool.false_eq_true, if_false, and_self]

theorem status_ne_pending (status : Disposal) : status.status ≠ .pending := by
  cases status <;> decide

theorem before_dispose {id operatorId : Nat} {status : Disposal} {remark : Option String}
    {now : Int} {i : Nat} {r' : ErrorLog} (h : (step desensitizeErrorSample s
      (.dispose id operatorId status remark now)).rows.find? i = some r') :
    ∃ r, s.rows.find? i = some r ∧ (r' = r ∨ r'.status ≠ .pending ∧
      r' = { r with
        status := r'.status
        handledBy := r'.handledBy
        handledAt := r'.handledAt
        remark := r'.remark }) := by
  rw [find?_dispose] at h
  obtain ⟨r, hr, rfl⟩ := Option.map_eq_some_iff.mp h
  refine ⟨r, hr, ?_⟩
  by_cases hc : (i == id && r.status == .pending) = true
  · rw [if_pos hc]
    exact .inr ⟨status_ne_pending status, rfl⟩
  · rw [if_neg hc]
    exact .inl rfl

theorem Aggregated.dispose (h : Aggregated desensitizeErrorSample s) (id operatorId : Nat)
    (status : Disposal) (remark : Option String) (now : Int) :
    Aggregated desensitizeErrorSample
      (step desensitizeErrorSample s (.dispose id operatorId status remark now)) := by
  obtain ⟨hnext, hwrites⟩ := dispose_frame desensitizeErrorSample s id
    operatorId status remark now
  constructor
  case fresh =>
    intro i r' hi
    obtain ⟨r, hr, -⟩ := before_dispose hi
    rw [hnext]
    exact h.fresh i r hr
  case written =>
    rw [hnext, hwrites]
    exact h.written
  case onePending =>
    intro i j r₁ r₂ h₁ h₂ p₁ p₂ hf hb
    obtain ⟨q₁, hq₁, rfl | ⟨hp, -⟩⟩ := before_dispose h₁
    · obtain ⟨q₂, hq₂, rfl | ⟨hp, -⟩⟩ := before_dispose h₂
      · exact h.onePending i j r₁ r₂ hq₁ hq₂ p₁ p₂ hf hb
      · exact absurd p₂ hp
    · exact absurd p₁ hp
  case counts =>
    rw [hwrites, ← h.counts]
    unfold step disposeError
    by_cases hsel : (s.rows.select fun i r => i == id && r.status == .pending).isEmpty
    · simp only [hsel, if_true]
    · simp only [hsel, Bool.false_eq_true, if_false]
      rw [Table.total_updateMany]
      refine Table.total_congr fun i r _ => ?_
      by_cases hc : (i == id && r.status == .pending) = true
      · rw [if_pos hc]
      · rw [if_neg hc]
  case tells =>
    intro i r' hi
    have hcount : (step desensitizeErrorSample s
        (.dispose id operatorId status remark now)).countedIn i = s.countedIn i := by
      rw [ErrorLogs.countedIn, hwrites, ErrorLogs.countedIn]
    rw [hcount]
    obtain ⟨r, hr, rfl | ⟨-, he⟩⟩ := before_dispose hi
    · exact h.tells i _ hr
    · have ht := h.tells i r hr
      rw [he]
      exact ⟨ht.first, ht.last, ht.count, ht.kind⟩

/-! ## Runs -/

theorem Aggregated.step (h : Aggregated desensitizeErrorSample s) :
    Aggregated desensitizeErrorSample (step desensitizeErrorSample s e) := by
  cases e with
  | write input => exact h.upsert input
  | dispose id operatorId status remark now => exact h.dispose id operatorId status remark now

theorem aggregated_empty : Aggregated desensitizeErrorSample .empty where
  fresh := fun _ _ h => nomatch h
  written := fun _ h => (List.not_mem_nil h).elim
  onePending := fun _ _ _ _ h => nomatch h
  counts := rfl
  tells := fun _ _ h => nomatch h

theorem Aggregated.disposedKept_step (h : Aggregated desensitizeErrorSample s) :
    DisposedKept s (Logging.step desensitizeErrorSample s e) := by
  intro i r hr hp
  cases e with
  | write input =>
      obtain ⟨id, r', hrows, -, -, hcase⟩ :=
        find?_upsert desensitizeErrorSample s input
      have hi : i ≠ id := by
        rintro rfl
        rcases hcase with ⟨r₀, -, hf, hk, -⟩ | ⟨-, rfl, -⟩
        · rw [hr] at hf
          obtain rfl := Option.some.inj hf
          exact hp (ErrorLog.conflicts_iff.mp hk).1
        · exact Nat.lt_irrefl _ (h.fresh _ _ hr)
      show (upsertErrorLog desensitizeErrorSample input s).rows.find? i = some r
      rw [hrows, if_neg hi, hr]
  | dispose id operatorId status remark now =>
      rw [find?_dispose, hr, Option.map_some, if_neg]
      simp [hp]

theorem Aggregated.disposedKept (h : Aggregated desensitizeErrorSample s) :
    DisposedKept s (events.foldl (Logging.step desensitizeErrorSample) s) := by
  induction events generalizing s with
  | nil => exact fun _ _ hr _ => hr
  | cons e events ih => exact fun i r hr hp => ih h.step i r (h.disposedKept_step i r hr hp) hp

theorem TimesRight.step (h : Aggregated desensitizeErrorSample s) (ht : TimesRight s)
    (he : timely s e = true) : TimesRight (Logging.step desensitizeErrorSample s e) := by
  intro i r' hi
  cases e with
  | write input =>
      obtain ⟨id, r, hrows, -, hwrites, hcase⟩ :=
        find?_upsert desensitizeErrorSample s input
      change (upsertErrorLog desensitizeErrorSample input s).rows.find? i = some r' at hi
      show r'.firstSeenAt ≤ r'.lastSeenAt ∧
        (∃ e ∈ (upsertErrorLog desensitizeErrorSample input s).countedIn i,
          e.occurredAt = r'.lastSeenAt) ∧
        ∀ e ∈ (upsertErrorLog desensitizeErrorSample input s).countedIn i,
          e.occurredAt ≤ r'.lastSeenAt
      rw [hrows] at hi
      rw [countedIn_upsert hwrites]
      by_cases hid : i = id
      · subst hid
        rw [if_pos rfl] at hi ⊢
        obtain rfl := Option.some.inj hi
        rcases hcase with ⟨r₀, hc, hf, -, rfl⟩ | ⟨-, rfl, rfl⟩
        · obtain ⟨hle, -, hmax⟩ := ht i r₀ hf
          have hnew : r₀.lastSeenAt ≤ input.occurredAt := by simpa [timely, hc] using he
          refine ⟨Int.le_trans hle hnew, ⟨input, by simp, rfl⟩, fun e he => ?_⟩
          rcases List.mem_append.mp he with he | he
          · exact Int.le_trans (hmax e he) hnew
          · obtain rfl := List.mem_singleton.mp he
            exact Int.le_refl _
        · rw [h.countedIn_nextId]
          refine ⟨Int.le_refl _, ⟨input, by simp, rfl⟩, fun e he => ?_⟩
          obtain rfl := List.mem_singleton.mp he
          exact Int.le_refl _
      · rw [if_neg hid] at hi
        rw [if_neg (Ne.symm hid), List.append_nil]
        exact ht i r' hi
  | dispose id operatorId status remark now =>
      have hwrites := (dispose_frame desensitizeErrorSample s id
        operatorId status remark now).2
      rw [ErrorLogs.countedIn, hwrites]
      obtain ⟨r, hr, rfl | ⟨-, hr'⟩⟩ := before_dispose hi
      · exact ht i _ hr
      · rw [hr']
        exact ht i r hr

theorem timely_of_timesRight (ht : TimesRight s)
    (ht' : TimesRight (step desensitizeErrorSample s e)) : timely s e = true := by
  cases e with
  | dispose => rfl
  | write input =>
      show (match s.conflicting input with
        | some (_, r) => decide (r.lastSeenAt ≤ input.occurredAt)
        | none => true) = true
      obtain ⟨id, r, hrows, -, hwrites, ⟨r₀, hc, hf, -, rfl⟩ | ⟨hc, -, -⟩⟩ :=
        find?_upsert desensitizeErrorSample s input
      · obtain ⟨e, he, hlast⟩ := (ht id r₀ hf).2.1
        have hmax := (ht' id (r₀.recurs input) ((hrows id).trans (if_pos rfl))).2.2 e (by
          show e ∈ (upsertErrorLog desensitizeErrorSample input s).countedIn id
          rw [countedIn_upsert hwrites]
          exact List.mem_append_left _ he)
        rw [hc]
        exact decide_eq_true (hlast ▸ hmax)
      · rw [hc]

/-- Two failures of one kind that happened within a second and arrive the other way round. -/
def crossed : List LogEvent :=
  [.write ⟨.error, "fin", "fin", "SYSTEM", "c0ffee", "f1", 1000, some "r2", "later"⟩,
    .write ⟨.error, "fin", "fin", "SYSTEM", "c0ffee", "f1", 400, some "r1", "earlier"⟩]

end Wbme.Logging

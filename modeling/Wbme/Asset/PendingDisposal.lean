import Wbme.Asset.Disposal
import Wbme.SnapshotSql

/-! # The pending list of direct disposal

The list of borrow records that wait for a disposal reads the department snapshots in SQL,
the disposal itself reads them in the service. The two readings differ: a cast that fails
stops the query, a null id is inside every closure, and the service takes ids from places
where the query does not look.
-/

namespace Wbme.Asset.DisposalService

open Lib Approval

/-- What the scope conditions read of a borrow record of a deactivated account. A missing
snapshot is no JSON value at all; `recipients` are the snapshots of the list behind an agent
record. -/
structure PendingRow where
  recordType : BorrowType
  departmentSnapshot : Option Json
  recipients : List Json

/-! ## The query -/

/-- What a test contributes to a `NOT EXISTS`: go on, hide the row, or fail the query. -/
inductive Sign where
  | pass
  | hide
  | fail
deriving DecidableEq

/-- Rows are tested in order, up to the first that settles the question. -/
def firstSign : List Sign → Sign
  | [] => .pass
  | .pass :: signs => firstSign signs
  | s :: _ => s

theorem firstSign_map_eq_pass_iff {α : Type} {f : α → Sign} {xs : List α} :
    firstSign (xs.map f) = .pass ↔ ∀ x ∈ xs, f x = .pass := by
  induction xs with
  | nil => simp [firstSign]
  | cons x xs ih =>
      cases h : f x with
      | pass => simp [firstSign, h, ih]
      | hide => simp [firstSign, h]
      | fail => simp [firstSign, h]

theorem exists_hide {α : Type} {f : α → Sign} {xs : List α}
    (h : firstSign (xs.map f) = .hide) : ∃ x ∈ xs, f x = .hide := by
  induction xs with
  | nil => cases h
  | cons x xs ih =>
      cases hx : f x with
      | pass =>
          rw [List.map_cons, hx] at h
          obtain ⟨y, hy, hf⟩ := ih h
          exact ⟨y, List.mem_cons_of_mem _ hy, hf⟩
      | hide => exact ⟨x, List.mem_cons_self, hx⟩
      | fail =>
          rw [List.map_cons, hx] at h
          cases h

theorem firstSign_map_eq_fail_iff {α : Type} {f : α → Sign} {xs : List α} :
    firstSign (xs.map f) = .fail ↔
      ∃ before x after, xs = before ++ x :: after ∧ (∀ y ∈ before, f y = .pass) ∧
        f x = .fail := by
  induction xs with
  | nil => simp [firstSign]
  | cons x xs ih =>
      constructor
      · intro h
        cases hx : f x with
        | pass =>
            rw [List.map_cons, hx] at h
            obtain ⟨before, y, after, rfl, hbefore, hy⟩ := ih.mp h
            refine ⟨x :: before, y, after, rfl, ?_, hy⟩
            intro z hz
            rcases List.mem_cons.mp hz with rfl | hz
            · exact hx
            · exact hbefore z hz
        | hide =>
            rw [List.map_cons, hx] at h
            cases h
        | fail => exact ⟨[], x, xs, rfl, by simp, hx⟩
      · intro h
        obtain ⟨before, y, after, heq, hbefore, hy⟩ := h
        cases before with
        | nil =>
            obtain ⟨rfl, rfl⟩ := List.cons.inj heq
            rw [List.map_cons, hy]
            rfl
        | cons z before =>
            obtain ⟨rfl, rfl⟩ := List.cons.inj heq
            rw [List.map_cons, hbefore x List.mem_cons_self]
            exact ih.mpr ⟨before, y, after, rfl,
              fun w hw => hbefore w (List.mem_cons_of_mem _ hw), hy⟩

section Query

variable (textToInt : String → Option Int) (closure : List Nat)

/-- `(el->>'id')::int <> ALL(closure)`. Against an empty array it is true, of null too;
otherwise null makes it null. -/
def elementSign (element : Json) : Sign :=
  match castId textToInt element with
  | .failed => .fail
  | .null => if closure.isEmpty then .hide else .pass
  | .id n => if inClosure closure n then .pass else .hide

/-- The elements of a snapshot; a single value counts as an array of one. -/
def snapshotElements : Json → List Json
  | .arr xs => xs
  | other => [other]

/-- Some element, and none outside. -/
def snapshotSign (elements : List Json) : Sign :=
  if elements.isEmpty then .hide else firstSign (elements.map (elementSign textToInt closure))

def snapshotsOf (row : PendingRow) : List (List Json) :=
  match row.recordType with
  | .personal => [(row.departmentSnapshot.map snapshotElements).getD []]
  | .agent => row.recipients.map snapshotElements

def scopeSql (row : PendingRow) : Sign :=
  firstSign ((snapshotsOf row).map (snapshotSign textToInt closure))

/-- The rows of the list; a failed cast fails the query. -/
def listPending (scope : ApproverScope) (rows : List PendingRow) : Option (List PendingRow) :=
  match scope with
  | .company => some rows
  | .department _ =>
      if rows.any fun row => scopeSql textToInt closure row == .fail then none
      else some (rows.filter fun row => scopeSql textToInt closure row == .pass)

end Query

/-! ## The action -/

/-- The snapshots the action reads. -/
def PendingRow.snapshots (row : PendingRow) : List Json :=
  match row.recordType with
  | .personal => [row.departmentSnapshot.getD .null]
  | .agent => row.recipients

/-- The scope check of a disposal. -/
def acceptsScope (scope : ApproverScope) (closure : List Nat) (snapshots : List Json) : Bool :=
  match scope with
  | .company => true
  | .department _ => snapshotsWithin closure snapshots

def pendingRowOf (s : Store) (record : BorrowRecord) : PendingRow where
  recordType := record.recordType
  departmentSnapshot := some record.departmentSnapshot
  recipients := match record.agentRequestId with
    | some requestId => (s.agentRecipients.select (fun _ r => r.requestId == requestId)).map
        (·.2.departmentSnapshot)
    | none => []

section Scope

variable (env : Environment) (n : Nat) (s : Store) (departmentIds closure : List Nat)

/-- The outcome under department scope: that of the whole company where the scope check
accepts, an error where it does not. -/
def ScopedOutcome {α : Type} (p : ApproverScope → Tx α) (accepted : Bool) : Prop :=
  if accepted then (p (.department departmentIds)).run n s = (p .company).run n s
  else ∃ e, (p (.department departmentIds)).run n s = .error e

theorem assertDisposable_scoped (locked : BorrowRecordLockRow) (record : BorrowRecord)
    (found : s.borrowRecords.find? locked.1 = some record)
    (personal : record.recordType = .personal) :
    ScopedOutcome n s departmentIds (fun scope => assertDisposable env locked scope closure)
      (acceptsScope (.department departmentIds) closure (pendingRowOf s record).snapshots) := by
  have hsnapshots : (pendingRowOf s record).snapshots = [record.departmentSnapshot] := by
    simp [PendingRow.snapshots, pendingRowOf, personal]
  rw [hsnapshots]
  unfold ScopedOutcome assertDisposable
  cases locked.2.recordType with
  | agent => split <;> simp [Txn.run]
  | personal =>
      cases locked.2.userId with
      | none => split <;> simp [Txn.run]
      | some userId =>
          simp only [Txn.run_bind, Txn.run_guard, acceptsScope]
          cases hdeactivated : env.deactivated userId with
          | false => split <;> simp
          | true =>
              simp only [if_true, Txn.run_query, found, Option.map_some, Option.getD_some]
              split
              · rfl
              · exact ⟨_, rfl⟩

theorem disposeAgentSettle_scoped (operator : Operator) (agentRequestId : Nat)
    (items : List SettlementRequestItem) (record : BorrowRecord)
    (agent : record.recordType = .agent) (ofList : record.agentRequestId = some agentRequestId) :
    ScopedOutcome n s departmentIds
      (fun scope => disposeAgentSettle env operator agentRequestId items scope closure)
      (acceptsScope (.department departmentIds) closure (pendingRowOf s record).snapshots) := by
  have hsnapshots : (pendingRowOf s record).snapshots =
      (s.agentRecipients.select (fun _ r => r.requestId == agentRequestId)).map
        (·.2.departmentSnapshot) := by
    simp [PendingRow.snapshots, pendingRowOf, agent, ofList]
  rw [hsnapshots]
  unfold ScopedOutcome disposeAgentSettle
  simp only [Txn.run_bind, Txn.run_query, Txn.run_orThrow, Txn.run_guard, acceptsScope]
  cases s.approvalRequests.find? agentRequestId with
  | none => split <;> simp
  | some source =>
      simp only [Option.elim_some]
      cases source.requestType == .agentRequest with
      | false => split <;> simp
      | true =>
          cases env.deactivated source.applicantId with
          | false => split <;> simp
          | true =>
              by_cases hpending : (pendingSettlements s agentRequestId).isEmpty = true
              · simp only [if_true, hpending]
                split
                · rfl
                · exact ⟨_, rfl⟩
              · rw [Bool.not_eq_true] at hpending
                split <;> simp [hpending]

end Scope

section Readings

variable (textToInt : String → Option Int) (closure : List Nat)

/-- The query takes the element for one of the closure; a missing id counts as one, unless the
closure is empty. -/
def InsideForQuery (element : Json) : Prop :=
  (castId textToInt element = .null ∧ closure ≠ []) ∨
    ∃ n, castId textToInt element = .id n ∧ inClosure closure n = true

/-- The query takes the snapshot for one of the closure. -/
def SnapshotInside (elements : List Json) : Prop :=
  elements ≠ [] ∧ ∀ element ∈ elements, InsideForQuery textToInt closure element

def HasElement (row : PendingRow) (element : Json) : Prop :=
  ∃ elements ∈ snapshotsOf row, element ∈ elements

/-- An id that cannot be cast, with nothing before it that hides the row. -/
def Unreadable (row : PendingRow) : Prop :=
  ∃ before elements after, snapshotsOf row = before ++ elements :: after ∧
    (∀ snapshot ∈ before, SnapshotInside textToInt closure snapshot) ∧
    ∃ first element rest, elements = first ++ element :: rest ∧
      (∀ e ∈ first, InsideForQuery textToInt closure e) ∧ castId textToInt element = .failed

/-- Inside for the query, but the action finds no id at all, or finds one outside of the
closure where the query sees null: a bare number, or a `departmentId`. -/
def ListedOnly (row : PendingRow) : Prop :=
  (∀ snapshot ∈ snapshotsOf row, SnapshotInside textToInt closure snapshot) ∧
    ((∀ element, HasElement row element → extractDepartmentIdFromSnapshot element = none) ∨
      ∃ element n, HasElement row element ∧ castId textToInt element = .null ∧
        extractDepartmentIdFromSnapshot element = some n ∧ inClosure closure n = false)

/-- All the ids that the action finds, at least one, are in the closure, but a snapshot of the
list is empty, or an id written as text is outside. -/
def DisposableOnly (row : PendingRow) : Prop :=
  (∃ element n, HasElement row element ∧ extractDepartmentIdFromSnapshot element = some n) ∧
    (∀ element n, HasElement row element → extractDepartmentIdFromSnapshot element = some n →
      inClosure closure n = true) ∧
    ([] ∈ snapshotsOf row ∨
      ∃ element n, HasElement row element ∧ castId textToInt element = .id n ∧
        extractDepartmentIdFromSnapshot element = none ∧ inClosure closure n = false)

variable {textToInt closure}

theorem elementSign_eq_pass_iff {element : Json} :
    elementSign textToInt closure element = .pass ↔
      InsideForQuery textToInt closure element := by
  unfold elementSign InsideForQuery
  cases castId textToInt element with
  | null => by_cases h : closure = [] <;> simp [h]
  | id n => simp
  | failed => simp

theorem elementSign_eq_fail_iff {element : Json} :
    elementSign textToInt closure element = .fail ↔ castId textToInt element = .failed := by
  unfold elementSign
  cases castId textToInt element with
  | null => by_cases h : closure = [] <;> simp [h]
  | id n => by_cases h : inClosure closure n = true <;> simp [h]
  | failed => simp

theorem snapshotSign_eq_pass_iff {elements : List Json} :
    snapshotSign textToInt closure elements = .pass ↔
      SnapshotInside textToInt closure elements := by
  unfold snapshotSign SnapshotInside
  cases elements with
  | nil => simp
  | cons e es =>
      rw [if_neg (by simp), firstSign_map_eq_pass_iff]
      simp only [elementSign_eq_pass_iff]
      simp

theorem snapshotSign_eq_fail_iff {elements : List Json} :
    snapshotSign textToInt closure elements = .fail ↔
      ∃ first element rest, elements = first ++ element :: rest ∧
        (∀ e ∈ first, InsideForQuery textToInt closure e) ∧
        castId textToInt element = .failed := by
  unfold snapshotSign
  cases elements with
  | nil => simp
  | cons e es =>
      rw [if_neg (by simp), firstSign_map_eq_fail_iff]
      simp only [elementSign_eq_pass_iff, elementSign_eq_fail_iff]

variable {row : PendingRow}

theorem scopeSql_eq_pass_iff :
    scopeSql textToInt closure row = .pass ↔
      ∀ snapshot ∈ snapshotsOf row, SnapshotInside textToInt closure snapshot := by
  unfold scopeSql
  rw [firstSign_map_eq_pass_iff]
  simp only [snapshotSign_eq_pass_iff]

theorem scopeSql_eq_fail_iff :
    scopeSql textToInt closure row = .fail ↔ Unreadable textToInt closure row := by
  unfold scopeSql Unreadable
  rw [firstSign_map_eq_fail_iff]
  simp only [snapshotSign_eq_pass_iff, snapshotSign_eq_fail_iff]

theorem extract_of_castId {element : Json} {n m : Int} (h : castId textToInt element = .id n)
    (hm : extractDepartmentIdFromSnapshot element = some m) : m = n := by
  cases element with
  | obj fields =>
      simp only [castId] at h
      simp only [extractDepartmentIdFromSnapshot] at hm
      cases hid : Json.field? fields "id" with
      | none => simp [hid] at h
      | some value =>
          rw [hid] at h hm
          cases value <;> grind
  | _ => cases h

theorem snapshotsOf_elements (row : PendingRow) :
    (row.snapshots.flatMap extractDepartmentIdsFromSnapshot).filterMap id =
      (snapshotsOf row).flatten.filterMap extractDepartmentIdFromSnapshot := by
  have hone : ∀ snapshot, extractDepartmentIdsFromSnapshot snapshot =
      (snapshotElements snapshot).map extractDepartmentIdFromSnapshot := by
    intro snapshot
    cases snapshot <;> rfl
  unfold PendingRow.snapshots snapshotsOf
  cases row.recordType with
  | personal =>
      cases row.departmentSnapshot with
      | none => rfl
      | some snapshot => simp [hone, List.filterMap_map]
  | agent => simp [hone, List.flatMap_def, List.filterMap_flatten, List.map_map,
      Function.comp_def, List.filterMap_map]

theorem snapshotsWithin_iff :
    snapshotsWithin closure row.snapshots = true ↔
      (∃ element n, HasElement row element ∧
        extractDepartmentIdFromSnapshot element = some n) ∧
      ∀ element n, HasElement row element → extractDepartmentIdFromSnapshot element = some n →
        inClosure closure n = true := by
  have hmem : ∀ n, n ∈ (snapshotsOf row).flatten.filterMap extractDepartmentIdFromSnapshot ↔
      ∃ element, HasElement row element ∧ extractDepartmentIdFromSnapshot element = some n := by
    intro n
    simp only [List.mem_filterMap, List.mem_flatten, HasElement]
  unfold snapshotsWithin
  rw [snapshotsOf_elements, Bool.and_eq_true, List.all_eq_true]
  constructor
  · intro h
    constructor
    · have hne : (snapshotsOf row).flatten.filterMap extractDepartmentIdFromSnapshot ≠ [] := by
        simpa using h.1
      obtain ⟨n, hn⟩ := List.exists_mem_of_ne_nil _ hne
      obtain ⟨element, he⟩ := (hmem n).mp hn
      exact ⟨element, n, he⟩
    · intro element n he hn
      exact h.2 n ((hmem n).mpr ⟨element, he, hn⟩)
  · intro h
    obtain ⟨⟨element, n, he⟩, hall⟩ := h
    constructor
    · have hn := (hmem n).mpr ⟨element, he⟩
      cases hids : (snapshotsOf row).flatten.filterMap extractDepartmentIdFromSnapshot with
      | nil => rw [hids] at hn; cases hn
      | cons _ _ => rfl
    · intro m hm
      obtain ⟨e, he, hm⟩ := (hmem m).mp hm
      exact hall e m he hm

theorem not_listedOnly_of_within (h : snapshotsWithin closure row.snapshots = true) :
    ¬ ListedOnly textToInt closure row := by
  obtain ⟨⟨element, n, he, hn⟩, hall⟩ := snapshotsWithin_iff.mp h
  intro hlisted
  rcases hlisted.2 with hnone | ⟨e, m, he', _, hm, hout⟩
  · rw [hnone element he] at hn
    cases hn
  · rw [hall e m he' hm] at hout
    cases hout

theorem not_disposableOnly_of_pass (h : scopeSql textToInt closure row = .pass) :
    ¬ DisposableOnly textToInt closure row := by
  have hinside := scopeSql_eq_pass_iff.mp h
  intro hdisposable
  rcases hdisposable.2.2 with hempty | ⟨e, n, he, hid, _, hout⟩
  · exact (hinside [] hempty).1 rfl
  · obtain ⟨snapshot, hs, hmem⟩ := he
    rcases (hinside snapshot hs).2 e hmem with ⟨hnull, _⟩ | ⟨m, hm, hin⟩
    · rw [hid] at hnull
      cases hnull
    · rw [hid] at hm
      cases hm
      rw [hin] at hout
      cases hout

theorem listedOnly_of_pass (h : scopeSql textToInt closure row = .pass)
    (hwithin : snapshotsWithin closure row.snapshots = false) :
    ListedOnly textToInt closure row := by
  have hinside := scopeSql_eq_pass_iff.mp h
  refine ⟨hinside, ?_⟩
  by_contra hnot
  rw [not_or] at hnot
  obtain ⟨hsome, hcovered⟩ := hnot
  push Not at hsome
  obtain ⟨element, he, hn⟩ := hsome
  obtain ⟨n, hn⟩ := Option.ne_none_iff_exists'.mp hn
  have : snapshotsWithin closure row.snapshots = true := by
    refine snapshotsWithin_iff.mpr ⟨⟨element, n, he, hn⟩, ?_⟩
    intro e m he hm
    obtain ⟨snapshot, hs, hmem⟩ := he
    rcases (hinside snapshot hs).2 e hmem with ⟨hnull, _⟩ | ⟨k, hk, hin⟩
    · by_contra hout
      exact hcovered ⟨e, m, ⟨snapshot, hs, hmem⟩, hnull, hm, Bool.eq_false_iff.mpr hout⟩
    · rw [extract_of_castId hk hm]
      exact hin
  rw [this] at hwithin
  cases hwithin

theorem disposableOnly_of_hide (h : scopeSql textToInt closure row = .hide)
    (hwithin : snapshotsWithin closure row.snapshots = true) :
    DisposableOnly textToInt closure row := by
  obtain ⟨hsome, hall⟩ := snapshotsWithin_iff.mp hwithin
  refine ⟨hsome, hall, ?_⟩
  obtain ⟨snapshot, hs, hhide⟩ := exists_hide h
  unfold snapshotSign at hhide
  split at hhide
  · rename_i hempty
    exact .inl (List.isEmpty_iff.mp hempty ▸ hs)
  · obtain ⟨element, hmem, he⟩ := exists_hide hhide
    unfold elementSign at he
    cases hid : castId textToInt element with
    | failed => simp [hid] at he
    | null =>
        -- only the empty closure puts a null id outside, and nothing is disposable then
        obtain ⟨e, n, hhas, hn⟩ := hsome
        have hin := hall e n hhas hn
        have hclosure : closure = [] := by simpa [hid] using he
        rw [hclosure] at hin
        cases hin
    | id n =>
        have hout : inClosure closure n = false := by simpa [hid] using he
        refine .inr ⟨element, n, ⟨snapshot, hs, hmem⟩, hid, ?_, hout⟩
        cases hm : extractDepartmentIdFromSnapshot element with
        | none => rfl
        | some m =>
            have hin := hall element m ⟨snapshot, hs, hmem⟩ hm
            rw [extract_of_castId hid hm, hout] at hin
            cases hin

theorem row_agrees_iff {row : PendingRow} :
    (scopeSql textToInt closure row ≠ .fail ∧
      (scopeSql textToInt closure row == .pass) = snapshotsWithin closure row.snapshots) ↔
      ¬ Unreadable textToInt closure row ∧ ¬ ListedOnly textToInt closure row ∧
        ¬ DisposableOnly textToInt closure row := by
  cases hsign : scopeSql textToInt closure row with
  | fail =>
      constructor
      · intro h
        exact absurd rfl h.1
      · intro h
        exact absurd (scopeSql_eq_fail_iff.mp hsign) h.1
  | pass =>
      have hreadable : ¬ Unreadable textToInt closure row := by
        rw [← scopeSql_eq_fail_iff, hsign]
        decide
      cases hwithin : snapshotsWithin closure row.snapshots with
      | true => simp [hreadable, not_listedOnly_of_within hwithin, not_disposableOnly_of_pass hsign]
      | false => simp [listedOnly_of_pass hsign hwithin]
  | hide =>
      have hreadable : ¬ Unreadable textToInt closure row := by
        rw [← scopeSql_eq_fail_iff, hsign]
        decide
      have hlisted : ¬ ListedOnly textToInt closure row := by
        intro h
        have := scopeSql_eq_pass_iff.mpr h.1
        rw [hsign] at this
        cases this
      cases hwithin : snapshotsWithin closure row.snapshots with
      | true => simp [disposableOnly_of_hide hsign hwithin]
      | false =>
          have hdisposable : ¬ DisposableOnly textToInt closure row := by
            intro h
            rw [snapshotsWithin_iff.mpr ⟨h.1, h.2.1⟩] at hwithin
            cases hwithin
          simp [hreadable, hlisted, hdisposable]

end Readings

/-- The list returns the rows that the disposal accepts, and no others, exactly when the actor
has company scope or no row is of the three kinds. -/
theorem listPending_eq_accepted_iff (textToInt : String → Option Int) (closure : List Nat)
    (scope : ApproverScope) (rows : List PendingRow) :
    listPending textToInt closure scope rows =
        some (rows.filter fun row => acceptsScope scope closure row.snapshots) ↔
      scope = .company ∨ ∀ row ∈ rows, ¬ Unreadable textToInt closure row ∧
        ¬ ListedOnly textToInt closure row ∧ ¬ DisposableOnly textToInt closure row := by
  cases scope with
  | company => simp [listPending, acceptsScope]
  | department departmentIds =>
      have hrows : (∀ row ∈ rows, ¬ Unreadable textToInt closure row ∧
          ¬ ListedOnly textToInt closure row ∧ ¬ DisposableOnly textToInt closure row) ↔
          ∀ row ∈ rows, scopeSql textToInt closure row ≠ .fail ∧
            (scopeSql textToInt closure row == .pass) =
              snapshotsWithin closure row.snapshots := by
        simp only [row_agrees_iff]
      rw [hrows]
      simp only [listPending, acceptsScope]
      constructor
      · intro h
        split at h
        · cases h
        · rename_i hreadable
          right
          intro row hrow
          constructor
          · intro hfail
            exact hreadable (List.any_eq_true.mpr ⟨row, hrow, beq_iff_eq.mpr hfail⟩)
          · have hmem := congrArg (row ∈ ·) (Option.some.inj h)
            simp only [List.mem_filter, hrow, true_and] at hmem
            exact Bool.eq_iff_iff.mpr hmem.to_iff
      · intro h
        have h := h.resolve_left (by simp)
        have hreadable : ¬ (rows.any fun row => scopeSql textToInt closure row == .fail) = true := by
          intro hany
          obtain ⟨row, hrow, hfail⟩ := List.any_eq_true.mp hany
          exact (h row hrow).1 (beq_iff_eq.mp hfail)
        rw [if_neg hreadable]
        exact congrArg some (List.filter_congr fun row hrow => (h row hrow).2)

/-- An agent list for a recipient without departments and one of department 3: the approver of
department 3 may settle it, and does not find it in the list. -/
def mixedList : PendingRow :=
  ⟨.agent, none, [.arr [], .arr [.obj [("id", .num 3), ("name", .str "Workshop")]]]⟩

theorem mixedList_disposable_unlisted :
    acceptsScope (.department [3]) [3] mixedList.snapshots = true ∧
      listPending String.toInt? [3] (.department [3]) [mixedList] = some [] :=
  ⟨by decide, by rfl⟩

end Wbme.Asset.DisposalService

import Wbme.OperationLogs.Ownership

/-! # Pages and batches

A list reads one page with each request, an export one batch of a snapshot with each query.
The keys of their order end with the id, but ids are those of five sequences: rows of two
schemas may tie, and a tie may reach across the border of two pages.
-/

namespace Wbme.OperationLogs

open Lib TableQuery
open TableQuery.SqlText (TableSort SqlToken joinTexts render)

/-! ## The text of the order -/

def OrderKey.text (key : OrderKey) : List SqlToken :=
  [.column key.column, .raw " ", .raw key.direction.word]

/-- The keys of a statement that sorts without being asked to. -/
def defaultKeys : List OrderKey := [⟨"created_at", .desc⟩, ⟨"id", .desc⟩]

theorem compileSort_eq {sort : TableSort} {key : OrderKey} (h : sortKey sort = .ok key) :
    SqlText.compileSort (SqlText.columnFields operationLogTableFields) sort = .ok key.text := by
  unfold sortKey at h
  unfold SqlText.compileSort SqlText.lookup SqlText.columnFields
  cases hfield : operationLogTableFields sort.field with
  | none => rw [hfield] at h; cases h
  | some field =>
      rw [hfield] at h
      cases h
      rfl

theorem mapM_compileSort {sorts : List TableSort} {keys : List OrderKey}
    (h : sorts.mapM sortKey = .ok keys) :
    sorts.mapM (SqlText.compileSort (SqlText.columnFields operationLogTableFields)) =
      .ok (keys.map OrderKey.text) := by
  induction sorts generalizing keys with
  | nil =>
      cases h
      rfl
  | cons sort sorts ih =>
      rw [List.mapM_cons] at h
      cases hkey : sortKey sort with
      | error e => rw [hkey] at h; cases h
      | ok key =>
          cases hkeys : sorts.mapM sortKey with
          | error e => rw [hkey, hkeys] at h; cases h
          | ok rest =>
              rw [hkey, hkeys] at h
              cases h
              rw [List.mapM_cons, compileSort_eq hkey, ih hkeys]
              rfl

theorem render_append (a b : List SqlToken) : render (a ++ b) = render a ++ render b := by
  simp [render, String.join_append]

theorem render_joinTexts_congr {separator : String} {last last' : List SqlToken}
    (h : render last = render last') (texts : List (List SqlToken)) :
    render (joinTexts separator (texts ++ [last])) =
      render (joinTexts separator (texts ++ [last'])) := by
  induction texts with
  | nil => simpa [joinTexts, List.intercalate] using h
  | cons text texts ih =>
      have hjoin : ∀ l, joinTexts separator (text :: texts ++ [l]) =
          text ++ [.raw separator] ++ joinTexts separator (texts ++ [l]) := by
        intro l
        cases texts <;> simp [joinTexts, List.intercalate]
      simp only [hjoin, render_append, ih]

theorem fetchBatches_eq {rows : List UnionRow} {choice : Nat → RowChoice}
    (hlength : ∀ i, (choice i rows).length = rows.length) (count j : Nat)
    (hcount : rows.length ≤ (j + count) * batchSize) :
    fetchBatches rows rows.length choice (j * batchSize) =
      (List.range count).flatMap fun i =>
        Paging.page batchSize (j + i) (choice ((j + i) * batchSize) rows) := by
  induction count generalizing j with
  | zero =>
      rw [fetchBatches, if_neg (by simpa using hcount)]
      rfl
  | succ count ih =>
      by_cases hlt : j * batchSize < rows.length
      · have hnext : j * batchSize + batchSize = (j + 1) * batchSize := (Nat.succ_mul _ _).symm
        have hindex : ∀ i, j + 1 + i = j + (i + 1) := fun i => by omega
        rw [fetchBatches, if_pos hlt, hnext, ih (j + 1) (by rw [hindex]; exact hcount),
          List.range_succ_eq_map, List.flatMap_cons, List.flatMap_map]
        simp only [hindex, Nat.succ_eq_add_one, Nat.add_zero]
        rfl
      · rw [fetchBatches, if_neg hlt, eq_comm, List.flatMap_eq_nil_iff]
        intro i _
        have hbound : (choice ((j + i) * batchSize) rows).length ≤ (j + i) * batchSize := by
          rw [hlength]
          have := Nat.mul_le_mul_right batchSize (Nat.le_add_right j i)
          omega
        rw [Paging.page, List.drop_eq_nil_of_le hbound, List.take_nil]

/-- How many pages a list has. -/
def totalPages (totalItems pageSize : Nat) : Nat := (totalItems + pageSize - 1) / pageSize

theorem le_totalPages_mul {total pageSize : Nat} (h : 0 < pageSize) :
    total ≤ totalPages total pageSize * pageSize := by
  have := Nat.lt_div_mul_add h (a := total + pageSize - 1)
  unfold totalPages
  omega

/-- An export writes every row that matches exactly once, however its queries order ties. -/
def ExportComplete (env : LogEnvironment) (query : OperationLogQuery) (statement : LogStatement)
    (store : LogStore) (rows : List UnionRow) : Prop :=
  ∀ choice : Nat → RowChoice, (∀ i, LegalChoice env statement (choice i)) →
    ∃ written, export_ env query store choice = .ok written ∧ written.Perm rows

/-- The pages of a list, one request after another, have every row that matches exactly once. -/
def ListComplete (env : LogEnvironment) (query : OperationLogQuery) (statement : LogStatement)
    (store : LogStore) (rows : List UnionRow) (pageSize : Nat) : Prop :=
  ∀ choice : Nat → RowChoice, (∀ i, LegalChoice env statement (choice i)) →
    ∃ shown, (List.range (totalPages rows.length pageSize)).mapM
        (fun i => (list env query (i + 1) pageSize store (choice i)).map Prod.fst) = .ok shown ∧
      shown.flatten.Perm rows

section Complete

variable {env : LogEnvironment} {query : OperationLogQuery} {statement : LogStatement}
  {store : LogStore} {rows : List UnionRow}

open Classical in
/-- Orders of the rows that match, extended to whatever rows a query finds. -/
noncomputable def extendChoice (env : LogEnvironment) (statement : LogStatement)
    (rows : List UnionRow) (ordered : Nat → List UnionRow) (i : Nat) : RowChoice := fun found =>
  if found = rows then ordered i else found.mergeSort (orderLe env.collation statement.order)

theorem legal_extendChoice {ordered : Nat → List UnionRow}
    (h : ∀ i, Paging.IsOrdered (orderLe env.collation statement.order) rows (ordered i)) (i : Nat) :
    LegalChoice env statement (extendChoice env statement rows ordered i) := by
  intro found
  unfold extendChoice
  split
  · next heq => exact heq ▸ h i
  · exact Paging.isOrdered_mergeSort (totalPreorder_orderLe env.collation statement.order) found

theorem extendChoice_self (ordered : Nat → List UnionRow) (i : Nat) :
    extendChoice env statement rows ordered i rows = ordered i := if_pos rfl

theorem export_eq (accepted : buildStatement env query = .ok statement)
    (found : matching env statement store = .ok rows) (few : rows.length ≤ env.maxRows)
    {choice : Nat → RowChoice} (legal : ∀ i, LegalChoice env statement (choice i)) :
    export_ env query store choice = .ok (Paging.pages batchSize
      (fun i => choice (i * batchSize) rows) rows.length) := by
  have hbatches := fetchBatches_eq (fun i => (legal i rows).perm.length_eq) rows.length 0
    (by rw [Nat.zero_add]; exact Nat.le_mul_of_pos_right _ (by decide))
  simp only [Nat.zero_mul, Nat.zero_add] at hbatches
  unfold export_
  rw [accepted]
  simp only [liftFailure, Except.mapError, bind, Except.bind, found, hbatches]
  rw [if_neg (Nat.not_lt.mpr few)]
  rfl

theorem list_eq (accepted : buildStatement env query = .ok statement)
    (found : matching env statement store = .ok rows) (pageSize i : Nat) (choice : RowChoice) :
    (list env query (i + 1) pageSize store choice).map Prod.fst =
      .ok (Paging.page pageSize i (choice rows)) := by
  unfold list
  rw [accepted]
  simp only [liftFailure, Except.mapError, bind, Except.bind, found]
  rfl

theorem mapM_ok {α β ε : Type} (f : α → Except ε β) (g : α → β) {xs : List α}
    (h : ∀ x ∈ xs, f x = .ok (g x)) : xs.mapM f = .ok (xs.map g) := by
  induction xs with
  | nil => rfl
  | cons x xs ih =>
      rw [List.mapM_cons, h x List.mem_cons_self, ih fun y hy => h y (List.mem_cons_of_mem _ hy)]
      rfl

theorem exportComplete_iff (accepted : buildStatement env query = .ok statement)
    (found : matching env statement store = .ok rows) (few : rows.length ≤ env.maxRows) :
    ExportComplete env query statement store rows ↔
      ∀ choice : Nat → List UnionRow,
        (∀ i, Paging.IsOrdered (orderLe env.collation statement.order) rows (choice i)) →
        (Paging.pages batchSize choice rows.length).Perm rows := by
  constructor
  · intro h choice hchoice
    -- the query of batch `i` starts at row `i * batchSize`
    obtain ⟨written, hwritten, hperm⟩ := h
      (fun offset => extendChoice env statement rows choice (offset / batchSize))
      (fun i => legal_extendChoice hchoice _)
    rw [export_eq accepted found few fun i => legal_extendChoice hchoice _] at hwritten
    cases hwritten
    have hpos : 0 < batchSize := by decide
    simpa [extendChoice_self, Nat.mul_div_cancel _ hpos] using hperm
  · intro h choice legal
    exact ⟨_, export_eq accepted found few legal,
      h (fun i => choice (i * batchSize) rows) fun i => legal _ rows⟩

theorem listComplete_iff (accepted : buildStatement env query = .ok statement)
    (found : matching env statement store = .ok rows) (pageSize : Nat) :
    ListComplete env query statement store rows pageSize ↔
      ∀ choice : Nat → List UnionRow,
        (∀ i, Paging.IsOrdered (orderLe env.collation statement.order) rows (choice i)) →
        (Paging.pages pageSize choice (totalPages rows.length pageSize)).Perm rows := by
  have hmapM : ∀ choice : Nat → RowChoice,
      (List.range (totalPages rows.length pageSize)).mapM
        (fun i => (list env query (i + 1) pageSize store (choice i)).map Prod.fst) =
      .ok ((List.range (totalPages rows.length pageSize)).map fun i =>
        Paging.page pageSize i (choice i rows)) := by
    intro choice
    exact mapM_ok _ _ fun i _ => list_eq accepted found pageSize i (choice i)
  constructor
  · intro h choice hchoice
    obtain ⟨shown, hshown, hperm⟩ := h (extendChoice env statement rows choice)
      (legal_extendChoice hchoice)
    rw [hmapM] at hshown
    cases hshown
    simpa only [extendChoice_self, ← List.flatMap_def, Paging.pages] using hperm
  · intro h choice legal
    refine ⟨_, hmapM choice, ?_⟩
    rw [← List.flatMap_def]
    exact h (fun i => choice i rows) fun i => legal i rows

end Complete

def allLogs : OperationLogQuery := ⟨none, none, none, none, none, none, none, none, none⟩

def allStatement : LogStatement := ⟨.empty, ⟨none, []⟩, defaultKeys⟩

def sameMoment : OperationLogRow :=
  ⟨some 1, some "Operator", none, "BASE", "settings", "UPDATE", "changed", none, 0⟩

/-- Ten logs of one schema and the first log of another, all of one moment. -/
def collidingStore : LogStore
  | .base => (List.range 10).foldl (fun t i => t.insert (i + 1) sameMoment) Table.empty
  | .hr => Table.empty.insert 1 sameMoment
  | _ => Table.empty

end Wbme.OperationLogs

import Wbme.Lib.Comparators
import Wbme.TableQuery.Requests
import Wbme.TableQuery.SqlText

/-!
# Sorting rows in memory

The rows that the filter keeps are sorted by the sorts of the request, one after another, and
by their places in the end. A descending sort turns the whole comparison around, the one with
an empty value as well, so it puts empty values first.
-/

namespace Wbme.TableQuery

open Lib (chain nullsLast turned)
open SqlText (TableSort parseSorts)

/-! ## The comparison -/

structure TextOrder where
  compare : List Char → List Char → Ordering
  consistent : Std.TransCmp compare

/-- How two values of a field compare; `none` for the `NaN` of what reads as no number. -/
def compareMemoryValues (texts : TextOrder) (left right : Option Value) (type : FieldType) :
    Option Ordering :=
  match left, right with
  | none, none => some .eq
  | none, some _ => some .gt
  | some _, none => some .lt
  | some _, some _ =>
      match type with
      | .number | .time =>
          match numberOf left, numberOf right with
          | some l, some r => some (compare l r)
          | _, _ => none
      | .date =>
          match memoryDate left, memoryDate right with
          | some l, some r => some (compare l r)
          | some _, none => some .lt
          | none, some _ => some .gt
          | none, none => some .eq
      | .text | .enum => some (texts.compare (stringOf left) (stringOf right))

/-- The first sort that does not tie decides; a `NaN` is not zero and is returned as well. -/
def compareTableRows (texts : TextOrder) (fields : String → Option TableInMemoryField)
    (left right : Row) : List TableSort → Except Failure (Option Ordering)
  | [] => .ok (some .eq)
  | sort :: sorts =>
      match fields sort.field with
      | none => .error (validationError s!"不支持筛选或排序字段 {sort.field}")
      | some definition =>
          match compareMemoryValues texts (definition.value left) (definition.value right)
            definition.type with
          | none => .ok none
          | some .eq => compareTableRows texts fields left right sorts
          | some order => .ok (some (if sort.direction = .asc then order else order.swap))

/-- The comparison that is handed to the sort: rows that tie go by their places, and a sort
reads `NaN` as a tie. -/
def comparePlaced (texts : TextOrder) (fields : String → Option TableInMemoryField)
    (sorts : List TableSort) (left right : Row × Nat) : Except Failure Ordering :=
  (compareTableRows texts fields left.1 right.1 sorts).map fun
    | none => .eq
    | some order => order.then (compare left.2 right.2)

/-- Compare every two elements; a comparison that fails ends the sort. -/
def compareAll {α : Type} (cmp : α → α → Except Failure Ordering) : List α → Except Failure Unit
  | [] => .ok ()
  | a :: rest => do
      rest.forM fun b => discard (cmp a b)
      compareAll cmp rest

/-- Does the first of two compared elements stay in front? -/
def inOrder : Except Failure Ordering → Bool
  | .ok order => order ≠ .gt
  | .error _ => true

/-- `Array.sort`. Which elements it compares is left to the engine; here it is all of them. -/
def sortWith {α : Type} (cmp : α → α → Except Failure Ordering) (l : List α) :
    Except Failure (List α) := do
  compareAll cmp l
  return l.insertionSort fun a b => inOrder (cmp a b) = true

def matchingRows (folding : CaseFolding) (now : Int) (rows : List Row)
    (fields : String → Option TableInMemoryField) :
    Option TableFilterTreeNode → Except Failure (List Row)
  | none => .ok rows
  | some tree => rows.filterM fun row => matchesNode folding now fields row tree

def filterAndSortTableRows (texts : TextOrder) (folding : CaseFolding) (now : Int)
    (rows : List Row) (filters sorts : Option (Option Json))
    (fields : String → Option TableInMemoryField) : Except Failure (List Row) := do
  let tree ← parseFilters filters
  let sorts ← parseSorts sorts
  let filtered ← matchingRows folding now rows fields tree
  if sorts = [] then
    return filtered
  else do
    let sorted ← sortWith (comparePlaced texts fields sorts) filtered.zipIdx
    return sorted.map (·.1)

/-! ## What is promised -/

/-- A field that reads values of its type; dates may be texts as well. -/
structure TypedField extends TableInMemoryField where
  typed : ∀ row v, value row = some v → v.hasType type = true ∨ type = .date ∧ ∃ s, v = .text s

structure SortKey where
  field : TypedField
  descending : Bool

def sortKeys (fields : String → Option TypedField) (sorts : List TableSort) :
    Option (List SortKey) :=
  sorts.mapM fun sort => (fields sort.field).map fun field => ⟨field, sort.direction = .desc⟩

/-- The order of values in a field: of numbers, of dates with what reads as none behind them,
or of texts. -/
def valueOrder (texts : TextOrder) (type : FieldType) (a b : Value) : Ordering :=
  match type with
  | .number | .time => compare ((numberOf (some a)).getD 0) ((numberOf (some b)).getD 0)
  | .date => nullsLast compare (memoryDate (some a)) (memoryDate (some b))
  | .text | .enum => texts.compare (stringOf (some a)) (stringOf (some b))

/-- The promised comparison by one key: in its direction, with empty values last. -/
def SortKey.promised (texts : TextOrder) (key : SortKey) (a b : Row) : Ordering :=
  nullsLast (turned key.descending (valueOrder texts key.field.type)) (key.field.value a)
    (key.field.value b)

/-- The comparison that the code makes by one key: the turn takes the empty values along. -/
def SortKey.made (texts : TextOrder) (key : SortKey) (a b : Row) : Ordering :=
  turned key.descending (nullsLast (valueOrder texts key.field.type)) (key.field.value a)
    (key.field.value b)

def promisedOrder (texts : TextOrder) (keys : List SortKey) : Row → Row → Ordering :=
  chain (keys.map (SortKey.promised texts))

def madeOrder (texts : TextOrder) (keys : List SortKey) : Row → Row → Ordering :=
  chain (keys.map (SortKey.made texts))

/-- The matching rows, each as often as before, in the promised order, and those that tie as
they stood. -/
structure PromisedResult (texts : TextOrder) (keys : List SortKey) (matching result : List Row) :
    Prop where
  perm : result.Perm matching
  sorted : result.Pairwise fun a b => promisedOrder texts keys a b ≠ .gt
  stable : ∀ row, result.filter (fun other => promisedOrder texts keys row other = .eq) =
    matching.filter fun other => promisedOrder texts keys row other = .eq

def EmptyFirst (texts : TextOrder) : List SortKey → Row → Row → Prop
  | [], _, _ => False
  | key :: keys, a, b =>
      key.descending = true ∧ key.field.value a = none ∧ key.field.value b ≠ none ∨
        key.promised texts a b = .eq ∧ EmptyFirst texts keys a b

section Orders

variable (texts : TextOrder)

instance transCmp_valueOrder (type : FieldType) : Std.TransCmp (valueOrder texts type) := by
  have htexts := texts.consistent
  have hnumber : Std.TransCmp fun a b : Value =>
      compare ((numberOf (some a)).getD 0) ((numberOf (some b)).getD 0) :=
    Lib.transCmp_on compare fun a => (numberOf (some a)).getD 0
  have htext : Std.TransCmp fun a b : Value =>
      texts.compare (stringOf (some a)) (stringOf (some b)) :=
    Lib.transCmp_on texts.compare fun a => stringOf (some a)
  cases type with
  | number => exact hnumber
  | time => exact hnumber
  | date => exact Lib.transCmp_on (nullsLast compare) fun a => memoryDate (some a)
  | text => exact htext
  | enum => exact htext

instance transCmp_madeOrder (keys : List SortKey) : Std.TransCmp (madeOrder texts keys) := by
  apply Lib.transCmp_chain
  intro cmp hcmp
  rcases List.mem_map.mp hcmp with ⟨key, -, heq⟩
  rw [← heq]
  exact Lib.transCmp_on (turned key.descending (nullsLast (valueOrder texts key.field.type)))
    key.field.value

theorem made_eq_promised {key : SortKey} {a b : Row}
    (h : key.descending = true → (key.field.value a = none ↔ key.field.value b = none)) :
    key.made texts a b = key.promised texts a b := by
  unfold SortKey.made SortKey.promised
  cases hdirection : key.descending with
  | false =>
      cases key.field.value a <;> cases key.field.value b <;> simp [turned, nullsLast]
  | true =>
      have hempty := h hdirection
      cases ha : key.field.value a <;> cases hb : key.field.value b <;>
        simp [turned, nullsLast, ha, hb] at hempty ⊢

theorem made_eq_eq {key : SortKey} {a b : Row} :
    key.made texts a b = .eq ↔ key.promised texts a b = .eq := by
  unfold SortKey.made SortKey.promised
  cases key.descending <;> cases key.field.value a <;> cases key.field.value b <;>
    simp [turned, nullsLast]

theorem madeOrder_eq_eq {keys : List SortKey} {a b : Row} :
    madeOrder texts keys a b = .eq ↔ promisedOrder texts keys a b = .eq := by
  induction keys with
  | nil => simp [madeOrder, promisedOrder, chain]
  | cons key keys ih =>
      simp only [madeOrder, promisedOrder, List.map_cons, chain, Ordering.then_eq_eq,
        made_eq_eq] at ih ⊢
      rw [ih]

theorem EmptyFirst.orders {keys : List SortKey} {a b : Row} (h : EmptyFirst texts keys a b) :
    madeOrder texts keys a b = .lt ∧ promisedOrder texts keys a b = .gt := by
  induction keys with
  | nil => exact h.elim
  | cons key keys ih =>
      simp only [madeOrder, promisedOrder, List.map_cons, chain] at ih ⊢
      rcases h with ⟨hdirection, ha, hb⟩ | ⟨htie, hrest⟩
      · obtain ⟨v, hv⟩ := Option.ne_none_iff_exists'.mp hb
        simp [SortKey.made, SortKey.promised, turned, nullsLast, hdirection, ha, hv]
      · rw [htie, (made_eq_eq texts).mpr htie]
        exact ih hrest

theorem promised_swap {key : SortKey} {a b : Row} (h : key.promised texts a b = .eq) :
    key.promised texts b a = .eq := by
  have hcmp : Std.TransCmp (key.promised texts) := Lib.transCmp_on
    (nullsLast (turned key.descending (valueOrder texts key.field.type))) key.field.value
  exact Std.OrientedCmp.eq_symm h

theorem madeOrder_eq_promisedOrder {keys : List SortKey} {a b : Row}
    (hab : ¬ EmptyFirst texts keys a b) (hba : ¬ EmptyFirst texts keys b a) :
    madeOrder texts keys a b = promisedOrder texts keys a b := by
  induction keys with
  | nil => rfl
  | cons key keys ih =>
      simp only [EmptyFirst, not_or, not_and] at hab hba
      simp only [madeOrder, promisedOrder, List.map_cons, chain] at ih ⊢
      have hkey : key.made texts a b = key.promised texts a b := by
        apply made_eq_promised
        intro hdirection
        constructor
        · intro ha
          by_contra hb
          exact hab.1 hdirection ha hb
        · intro hb
          by_contra ha
          exact hba.1 hdirection hb ha
      rw [hkey]
      cases htie : key.promised texts a b with
      | lt => rfl
      | gt => rfl
      | eq =>
          rw [Ordering.eq_then, Ordering.eq_then]
          exact ih (hab.2 htie) (hba.2 (promised_swap texts htie))

end Orders

section Result

variable {α : Type} {folding : CaseFolding}

theorem insertionSort_rel {r s : α → α → Prop} [DecidableRel r] [DecidableRel s]
    (h : ∀ a b, r a b ↔ s a b) (l : List α) : l.insertionSort r = l.insertionSort s := by
  have hrel : r = s := by
    funext a b
    exact propext (h a b)
  subst hrel
  congr

theorem compareAll_ok {α : Type} {cmp : α → α → Except Failure Ordering} {made : α → α → Ordering}
    (h : ∀ a b, cmp a b = .ok (made a b)) (l : List α) : compareAll cmp l = .ok () := by
  induction l with
  | nil => rfl
  | cons a rest ih =>
      have hrest : ∀ others : List α, (others.forM fun b => discard (cmp a b)) =
          (.ok () : Except Failure Unit) := by
        intro others
        induction others with
        | nil => rfl
        | cons b others ihOthers =>
            show (discard (cmp a b) >>= fun _ => others.forM fun b => discard (cmp a b)) = .ok ()
            rw [h a b, ihOthers]
            rfl
      show ((rest.forM fun b => discard (cmp a b)) >>= fun _ => compareAll cmp rest) = .ok ()
      rw [hrest rest, ih]
      rfl

theorem sortWith_ok {cmp : α → α → Except Failure Ordering} {made : α → α → Ordering}
    (h : ∀ a b, cmp a b = .ok (made a b)) (l : List α) :
    sortWith cmp l = .ok (l.insertionSort fun a b => made a b ≠ .gt) := by
  unfold sortWith
  rw [compareAll_ok h]
  show Except.ok _ = Except.ok _
  congr 1
  apply insertionSort_rel
  intro a b
  simp [h, inOrder]

theorem filterM_ok {judge : α → Except Failure Bool} {l : List α}
    (h : ∀ a ∈ l, ∃ found, judge a = .ok found) :
    l.filterM judge = .ok (l.filter fun a => judge a matches .ok true) := by
  have hloop : ∀ acc, l.filterAuxM judge acc =
      .ok ((l.filter fun a => judge a matches .ok true).reverse ++ acc) := by
    induction l with
    | nil => exact fun _ => rfl
    | cons a rest ih =>
        intro acc
        rcases h a List.mem_cons_self with ⟨found, hfound⟩
        have hrest := ih (fun b hb => h b (List.mem_cons_of_mem _ hb))
        unfold List.filterAuxM
        rw [hfound]
        show rest.filterAuxM judge (cond found (a :: acc) acc) = _
        rw [hrest]
        cases found with
        | true => simp [hfound]
        | false => simp [hfound]
  unfold List.filterM
  rw [hloop]
  show Except.ok _ = Except.ok _
  rw [List.append_nil, List.reverse_reverse]

variable (texts : TextOrder) {fields : String → Option TypedField}

/-- The fields as the calls take them. -/
def plainFields (fields : String → Option TypedField) : String → Option TableInMemoryField :=
  fun name => (fields name).map TypedField.toTableInMemoryField

theorem compareMemoryValues_typed (field : TypedField) (a b : Row) :
    compareMemoryValues texts (field.value a) (field.value b) field.type =
      some (nullsLast (valueOrder texts field.type) (field.value a) (field.value b)) := by
  cases ha : field.value a with
  | none => cases field.value b <;> rfl
  | some v =>
      cases hb : field.value b with
      | none => rfl
      | some w =>
          have hv := field.typed a v ha
          have hw := field.typed b w hb
          cases htype : field.type with
          | text => rfl
          | enum => rfl
          | date =>
              simp only [compareMemoryValues, nullsLast, valueOrder]
              cases memoryDate (some v) <;> cases memoryDate (some w) <;> rfl
          | number =>
              rw [htype] at hv hw
              cases v <;> cases w <;> simp [Value.hasType] at hv hw
              rfl
          | time =>
              rw [htype] at hv hw
              cases v <;> cases w <;> simp [Value.hasType] at hv hw
              rfl

theorem compareTableRows_eq {sorts : List TableSort} {keys : List SortKey}
    (hkeys : sortKeys fields sorts = some keys) (a b : Row) :
    compareTableRows texts (plainFields fields) a b sorts =
      .ok (some (madeOrder texts keys a b)) := by
  induction sorts generalizing keys with
  | nil =>
      simp only [sortKeys, List.mapM_nil, Option.pure_def, Option.some.injEq] at hkeys
      rw [← hkeys]
      rfl
  | cons sort sorts ih =>
      simp only [sortKeys, List.mapM_cons, Option.pure_def, Option.bind_eq_bind,
        Option.bind_eq_some_iff, Option.map_eq_some_iff, Option.some.injEq] at hkeys
      rcases hkeys with ⟨key, ⟨field, hfield, hkey⟩, later, hlater, heq⟩
      have hrest := ih hlater
      unfold compareTableRows
      simp only [plainFields, hfield, Option.map_some, compareMemoryValues_typed]
      rw [← heq, ← hkey]
      simp only [madeOrder, List.map_cons, chain, SortKey.made, turned]
      cases horder : nullsLast (valueOrder texts field.type) (field.value a) (field.value b) with
      | eq =>
          show compareTableRows texts (plainFields fields) a b sorts = _
          rw [hrest]
          cases sort.direction <;> rfl
      | lt => cases sort.direction <;> rfl
      | gt => cases sort.direction <;> rfl

def rowMatches (folding : CaseFolding) (now : Int) (fields : String → Option TypedField)
    (tree : Option TableFilterTreeNode) (row : Row) : Except Failure Bool :=
  match tree with
  | none => .ok true
  | some tree => matchesNode folding now (plainFields fields) row tree

/-- A request that is accepted for some rows: its texts can be read, its conditions can be
judged for each row, and its sorts name registered fields. -/
structure AcceptedRequest (folding : CaseFolding) (now : Int) (fields : String → Option TypedField)
    (rows : List Row) where
  filters : Option (Option Json)
  sorts : Option (Option Json)
  tree : Option TableFilterTreeNode
  keys : List SortKey
  filters_read : parseFilters filters = .ok tree
  judged : ∀ row ∈ rows, ∃ found, rowMatches folding now fields tree row = .ok found
  sorts_read : ∃ list, parseSorts sorts = .ok list ∧ sortKeys fields list = some keys

def AcceptedRequest.matching {folding : CaseFolding} {now : Int}
    {fields : String → Option TypedField} {rows : List Row}
    (request : AcceptedRequest folding now fields rows) : List Row :=
  rows.filter fun row => rowMatches folding now fields request.tree row matches .ok true

theorem sortPlaces_chain_nil (l : List Row) : Lib.sortPlaces (madeOrder texts []) l = l := by
  have hties := Lib.sortPlaces_ties (madeOrder texts []) l fun _ => none
  simpa [madeOrder, chain] using hties

theorem filterAndSortTableRows_eq {now : Int} {rows : List Row}
    (request : AcceptedRequest folding now fields rows) :
    filterAndSortTableRows texts folding now rows request.filters request.sorts
        (plainFields fields) =
      .ok (Lib.sortPlaces (madeOrder texts request.keys) request.matching) := by
  rcases request.sorts_read with ⟨list, hsorts, hkeys⟩
  have hfiltered : matchingRows folding now rows (plainFields fields) request.tree =
      .ok request.matching := by
    have hjudged := request.judged
    unfold AcceptedRequest.matching
    cases htree : request.tree with
    | none => simp [matchingRows, rowMatches]
    | some tree =>
        rw [htree] at hjudged
        exact filterM_ok hjudged
  unfold filterAndSortTableRows
  rw [request.filters_read, hsorts]
  simp only [bind, Except.bind, hfiltered, pure, Except.pure]
  by_cases hnil : list = []
  · rw [if_pos hnil]
    rw [hnil] at hkeys
    simp only [sortKeys, List.mapM_nil, Option.pure_def, Option.some.injEq] at hkeys
    rw [← hkeys, sortPlaces_chain_nil]
  · rw [if_neg hnil]
    have hmade : ∀ a b : Row × Nat, comparePlaced texts (plainFields fields) list a b =
        .ok (Lib.placed (madeOrder texts request.keys) a b) := by
      intro a b
      unfold comparePlaced
      rw [compareTableRows_eq texts hkeys]
      rfl
    rw [sortWith_ok hmade]
    rfl

theorem PromisedResult.not_emptyFirst {now : Int} {rows : List Row}
    (request : AcceptedRequest folding now fields rows)
    (hpromised : PromisedResult texts request.keys request.matching
      (Lib.sortPlaces (madeOrder texts request.keys) request.matching)) {a b : Row}
    (ha : a ∈ request.matching) (hb : b ∈ request.matching) :
    ¬ EmptyFirst texts request.keys a b := by
  intro hempty
  have hperm := Lib.sortPlaces_perm (madeOrder texts request.keys) request.matching
  have hsorted := Lib.sortPlaces_pairwise (madeOrder texts request.keys) request.matching
  have horders := hempty.orders
  have hne : a ≠ b := by
    intro heq
    have hself : madeOrder texts request.keys b b = .eq := Std.ReflCmp.compare_self
    rw [heq, hself] at horders
    cases horders.1
  have hpair := Lib.related_of_pairwise (hsorted.and hpromised.sorted) (hperm.mem_iff.mpr ha)
    (hperm.mem_iff.mpr hb) hne
  rcases hpair with hab | hba
  · exact hab.2 horders.2
  · apply hba.1
    rw [Std.OrientedCmp.gt_iff_lt]
    exact horders.1

/-- The promise is kept exactly when no two matching rows are told apart by a descending key
that is empty for one of them. -/
theorem filterAndSortTableRows_promised_iff {folding : CaseFolding} {now : Int} {rows : List Row}
    (request : AcceptedRequest folding now fields rows) :
    (∃ result, filterAndSortTableRows texts folding now rows request.filters request.sorts
        (plainFields fields) = .ok result ∧
      PromisedResult texts request.keys request.matching result) ↔
      ∀ a ∈ request.matching, ∀ b ∈ request.matching, ¬ EmptyFirst texts request.keys a b := by
  have hcall := filterAndSortTableRows_eq texts request
  constructor
  · intro hpromised a ha b hb
    rcases hpromised with ⟨result, hresult, hpromised⟩
    rw [hcall, Except.ok.injEq] at hresult
    subst hresult
    exact hpromised.not_emptyFirst texts request ha hb
  · intro hnone
    have hperm := Lib.sortPlaces_perm (madeOrder texts request.keys) request.matching
    refine ⟨_, hcall, hperm, ?_, ?_⟩
    · apply (Lib.sortPlaces_pairwise (madeOrder texts request.keys) request.matching).imp_of_mem
      intro a b ha hb hab
      have hsame := madeOrder_eq_promisedOrder texts
        (hnone a (hperm.mem_iff.mp ha) b (hperm.mem_iff.mp hb))
        (hnone b (hperm.mem_iff.mp hb) a (hperm.mem_iff.mp ha))
      rwa [← hsame]
    · intro row
      have hties := Lib.sortPlaces_ties (madeOrder texts request.keys) request.matching row
      simpa only [madeOrder_eq_eq] using hties

end Result

namespace Sample

def minutes : TypedField where
  type := .number
  value := fun row => (row "minutes").filter fun v => v.hasType .number
  typed := by
    intro row v hv
    exact Or.inl (Option.filter_eq_some_iff.mp hv).2

def fields (name : String) : Option TypedField := if name = "minutes" then some minutes else none

def blank : Row := fun _ => none

def hour : Row := fun column => if column = "minutes" then some (.number 60) else none

def byCode : TextOrder := ⟨compare, inferInstance⟩

def longestFirst : Option (Option Json) :=
  some (some (.arr [.obj [("field", .str "minutes"), ("direction", .str "DESC")]]))

def request (folding : CaseFolding) : AcceptedRequest folding 0 fields [blank, hour] where
  filters := none
  sorts := longestFirst
  tree := none
  keys := [⟨minutes, true⟩]
  filters_read := rfl
  judged := fun _ _ => ⟨true, rfl⟩
  sorts_read := ⟨[⟨"minutes", .desc⟩], rfl, rfl⟩

end Sample

/-- The row without minutes stays in front of the one with sixty. -/
theorem blank_before_hour : ¬ ∃ result, filterAndSortTableRows Sample.byCode asciiFolding 0
      [Sample.blank, Sample.hour] none Sample.longestFirst (plainFields Sample.fields) =
        .ok result ∧
    PromisedResult Sample.byCode [⟨Sample.minutes, true⟩] [Sample.blank, Sample.hour] result := by
  intro hpromised
  rcases hpromised with ⟨result, hresult, hpromised⟩
  have hcall := filterAndSortTableRows_eq Sample.byCode (Sample.request asciiFolding)
  have hsame := Except.ok.inj (hcall.symm.trans hresult)
  subst hsame
  have hnone := hpromised.not_emptyFirst Sample.byCode (Sample.request asciiFolding)
    (List.mem_cons_self) (List.mem_cons_of_mem _ List.mem_cons_self)
  exact hnone (Or.inl ⟨rfl, rfl, by decide +kernel⟩)

end Wbme.TableQuery

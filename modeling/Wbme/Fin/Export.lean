import Wbme.Fin.FieldTexts
import Wbme.Fin.Store
import Wbme.Lib.Comparators
import Wbme.Lib.Grouping
import Wbme.Lib.Paging

/-! # The export of projects

The selected projects are read in batches, sorted by the place of their category, their year
and their id, and put into groups. A group is made by the name of the category that a project
remembers, and the sort goes by the id of the category. A category that was renamed has both
names in its projects, and its old name can belong to another category by now.
-/

namespace Wbme.Fin

open Lib

structure ExportProjectRow extends ProjectCalcResult where
  projectId : Nat
  bizCategoryId : Option Nat
  bizCategoryName : Option String
  year : Nat

structure ExportSubtotal where
  bizCategoryName : Option String
  totalInvoiced : String
  totalReceived : String
  totalSubcontractPaid : String
  equity : String
  grossMargin : Option String

structure ExportGroup where
  bizCategoryName : Option String
  rows : List ExportProjectRow
  subtotal : ExportSubtotal

def addTexts (a b : String) : String :=
  ((signedDecimalOf a).plus (signedDecimalOf b)).toFixed

def calcSubtotal (rows : List ExportProjectRow) : ExportSubtotal :=
  let totalReceived := (rows.map (·.totalReceived)).foldl addTexts "0.00"
  let equity := (rows.map (·.equity)).foldl addTexts "0.00"
  { bizCategoryName := rows.head?.bind (·.bizCategoryName)
    totalInvoiced := (rows.map (·.totalInvoiced)).foldl addTexts "0.00"
    totalReceived := totalReceived
    totalSubcontractPaid := (rows.map (·.totalSubcontractPaid)).foldl addTexts "0.00"
    equity := equity
    grossMargin :=
      if signedDecimalOf totalReceived = 0 then none
      else some (ratioText (signedDecimalOf equity) (signedDecimalOf totalReceived)) }

/-! ## Reading the projects -/

def fetchBatch : Nat := 500

def selectedProjects (s : FinStore) (inScope : Nat → Project → Bool) : List (Nat × Project) :=
  s.projects.select fun id p => p.isLive && inScope id p

def exportRow (s : FinStore) (project : Nat × Project) : ExportProjectRow :=
  { calcProjectAutoFields project.2.tentativeAuditedAmount project.2.miscExpense
      ((s.detailsOf .invoice project.1).map (·.2.amount))
      ((s.detailsOf .receipt project.1).map (·.2.amount))
      ((s.detailsOf .subcontractPayment project.1).map (·.2.amount)) with
    projectId := project.1
    bizCategoryId := project.2.bizCategoryId
    bizCategoryName := project.2.bizCategoryName
    year := project.2.year }

theorem exportRow_projectId (s : FinStore) (project : Nat × Project) :
    (exportRow s project).projectId = project.1 := rfl

/-- `sort` first, then the id. -/
def compareCategories (a b : Nat × FinanceDictItem) : Ordering :=
  (compare a.2.sort b.2.sort).then (compare a.1 b.1)

def sortedCategories (s : FinStore) : List (Nat × FinanceDictItem) :=
  (s.financeDictItems.select fun _ item => item.dictType == .bizCategory).insertionSort
    fun a b => compareCategories a b ≠ .gt

def maxSafeInteger : Nat := 2 ^ 53 - 1

/-- No category comes last, and a category that is not there any more in front of that. -/
def categoryIndex (categories : List Nat) (row : ExportProjectRow) : Nat :=
  match row.bizCategoryId with
  | none => maxSafeInteger
  | some id => if id ∈ categories then categories.idxOf id else maxSafeInteger - 1

def compareExportRows (categories : List Nat) (a b : ExportProjectRow) : Ordering :=
  chain [fun a b => compare (categoryIndex categories a) (categoryIndex categories b),
    fun a b => compare a.year b.year, fun a b => compare a.projectId b.projectId] a b

def sortedRows (s : FinStore) (projects : List (Nat × Project)) : List ExportProjectRow :=
  (projects.map (exportRow s)).insertionSort fun a b =>
    compareExportRows ((sortedCategories s).map (·.1)) a b ≠ .gt

/-! ## The export -/

def groupRows (rows : List ExportProjectRow) : List ExportGroup :=
  (groupsBy (·.bizCategoryName) rows).map fun g => ⟨g.1, g.2, calcSubtotal g.2⟩

def rowLimitExceeded (actualRows limit : Nat) : Failure :=
  .business .rowLimitExceeded [("actualRows", toString actualRows), ("limit", toString limit)]

def exportGroups (s : FinStore) (maxRows : Nat) (inScope : Nat → Project → Bool) :
    Except Failure (List ExportGroup) :=
  let total := (selectedProjects s inScope).length
  if maxRows < total then .error (rowLimitExceeded total maxRows)
  else
    -- one round more than there are rows, which is enough
    match Keyset.readAll (·.1) fetchBatch (selectedProjects s inScope) (total + 1) 0 with
    | none => .error .transactionExpired
    | some projects => .ok (groupRows (sortedRows s projects))

inductive SheetLine where
  | group (groupName : String)
  | data (seq : Nat) (row : ExportProjectRow)
  | subtotal (subtotal : ExportSubtotal) (fromRow toRow : Nat)

def dataLines : Nat → Nat → List ExportProjectRow → List (Nat × SheetLine)
  | _, _, [] => []
  | rowNumber, seq, row :: rows =>
      (rowNumber, .data (seq + 1) row) :: dataLines (rowNumber + 1) (seq + 1) rows

def sheetLines : Nat → Nat → List ExportGroup → List (Nat × SheetLine)
  | _, _, [] => []
  | rowNumber, seq, group :: groups =>
      let dataStartRow := rowNumber + 1
      let behind := dataStartRow + group.rows.length
      (rowNumber, .group (group.bizCategoryName.getD unclassifiedGroupName)) ::
        (dataLines dataStartRow seq group.rows ++
          if group.rows.length > 0 then
            (behind, .subtotal group.subtotal dataStartRow (behind - 1)) ::
              sheetLines (behind + 1) (seq + group.rows.length) groups
          else sheetLines behind (seq + group.rows.length) groups)

def buildExportBuffer (groups : List ExportGroup) : List (Nat × SheetLine) :=
  sheetLines 3 0 groups

/-! ## What is promised -/

/-- The columns that subtotals are made of. -/
inductive SumColumn where
  | totalInvoiced
  | totalReceived
  | totalSubcontractPaid
  | equity

def ExportProjectRow.text (row : ExportProjectRow) : SumColumn → String
  | .totalInvoiced => row.totalInvoiced
  | .totalReceived => row.totalReceived
  | .totalSubcontractPaid => row.totalSubcontractPaid
  | .equity => row.equity

def ExportSubtotal.text (subtotal : ExportSubtotal) : SumColumn → String
  | .totalInvoiced => subtotal.totalInvoiced
  | .totalReceived => subtotal.totalReceived
  | .totalSubcontractPaid => subtotal.totalSubcontractPaid
  | .equity => subtotal.equity

def ExportProjectRow.amount (column : SumColumn) (row : ExportProjectRow) : Int :=
  signedDecimalOf (row.text column)

def YearThenId (a b : ExportProjectRow) : Prop :=
  a.year < b.year ∨ a.year = b.year ∧ a.projectId < b.projectId

instance (a b : ExportProjectRow) : Decidable (YearThenId a b) :=
  inferInstanceAs (Decidable (_ ∨ _))

def linesBetween (fromRow toRow : Nat) (lines : List (Nat × SheetLine)) :
    List ExportProjectRow :=
  lines.filterMap fun line => match line.2 with
    | .data _ row => if fromRow ≤ line.1 ∧ line.1 ≤ toRow then some row else none
    | _ => none

structure PromisedExport (s : FinStore) (projects : List (Nat × Project))
    (groups : List ExportGroup) : Prop where
  /-- Every project is in one group, once. -/
  partition : (groups.flatMap (·.rows)).Perm (projects.map (exportRow s))
  uncategorisedLast : groups.Pairwise fun g _ => g.bizCategoryName ≠ none
  ordered : ∀ g ∈ groups, g.rows.Pairwise YearThenId
  oneGroupPerCategory : groups.Pairwise fun g h =>
    ∀ a ∈ g.rows, ∀ b ∈ h.rows, a.bizCategoryId ≠ b.bizCategoryId
  subtotals : ∀ g ∈ groups, ∀ column,
    g.subtotal.text column = Decimal.toFixed (g.rows.map (·.amount column)).sum
  /-- A subtotal line of the sheet is that of a group, and sums the lines of its rows. -/
  sheet : ∀ n subtotal fromRow toRow,
    (n, .subtotal subtotal fromRow toRow) ∈ buildExportBuffer groups →
      ∃ g ∈ groups, subtotal = g.subtotal ∧
        linesBetween fromRow toRow (buildExportBuffer groups) = g.rows

/-- The state of projects and dictionary in which the name that a project remembers says as
much as the id of its category, and in which adding up rounds nothing. -/
structure SettledCategories (s : FinStore) (projects : List (Nat × Project)) : Prop where
  /-- One category, one name. -/
  named : ∀ a ∈ projects, ∀ b ∈ projects,
    a.2.bizCategoryId = b.2.bizCategoryId → a.2.bizCategoryName = b.2.bizCategoryName
  /-- Categories of one name follow each other as the years and ids of their projects do. -/
  placed : ∀ a ∈ projects, ∀ b ∈ projects, a.2.bizCategoryName = b.2.bizCategoryName →
    categoryIndex ((sortedCategories s).map (·.1)) (exportRow s a) <
      categoryIndex ((sortedCategories s).map (·.1)) (exportRow s b) →
    YearThenId (exportRow s a) (exportRow s b)
  /-- A name stands on some project in front of all projects without a name. -/
  unnamedLast : ∀ a ∈ projects, a.2.bizCategoryName ≠ none → ∃ b ∈ projects,
    b.2.bizCategoryName = a.2.bizCategoryName ∧ ∀ c ∈ projects, c.2.bizCategoryName = none →
      compareExportRows ((sortedCategories s).map (·.1)) (exportRow s b) (exportRow s c) = .lt
  /-- Twenty digits hold the totals of the rows of a name. -/
  exact : ∀ (name : Option String) (column : SumColumn),
    sumAmounts (((sortedRows s projects).filter fun row => row.bizCategoryName = name).map
      (·.amount column)) =
    (((sortedRows s projects).filter fun row => row.bizCategoryName = name).map
      (·.amount column)).sum

section Order

variable (categories : List Nat)

instance : Std.TransCmp (compareExportRows categories) := by
  have hindex : Std.TransCmp fun a b : ExportProjectRow =>
      compare (categoryIndex categories a) (categoryIndex categories b) :=
    transCmp_on compare (categoryIndex categories)
  have hyear : Std.TransCmp fun a b : ExportProjectRow => compare a.year b.year :=
    transCmp_on compare ExportProjectRow.year
  have hid : Std.TransCmp fun a b : ExportProjectRow => compare a.projectId b.projectId :=
    transCmp_on compare ExportProjectRow.projectId
  apply transCmp_chain
  intro key hkey
  simp only [List.mem_cons, List.not_mem_nil, or_false] at hkey
  rcases hkey with h | h | h
  · rw [h]
    exact hindex
  · rw [h]
    exact hyear
  · rw [h]
    exact hid

variable {categories} {a b : ExportProjectRow}

theorem compareExportRows_eq_lt :
    compareExportRows categories a b = .lt ↔
      categoryIndex categories a < categoryIndex categories b ∨
        categoryIndex categories a = categoryIndex categories b ∧ YearThenId a b := by
  simp only [compareExportRows, chain, Ordering.then_eq_lt, Nat.compare_eq_lt, Nat.compare_eq_eq,
    YearThenId, reduceCtorEq, and_false, or_false]

theorem projectId_of_compare_eq (h : compareExportRows categories a b = .eq) :
    a.projectId = b.projectId := by
  simp only [compareExportRows, chain, Ordering.then_eq_eq, Nat.compare_eq_eq] at h
  exact h.2.2.1

end Order

/-- The comparison puts the first in front. -/
def Precedes (s : FinStore) (a b : ExportProjectRow) : Prop :=
  compareExportRows ((sortedCategories s).map (·.1)) a b = .lt

theorem Precedes.asymm {s : FinStore} {a b : ExportProjectRow} (h : Precedes s a b) :
    ¬ Precedes s b a := by
  intro h'
  have hswap : compareExportRows ((sortedCategories s).map (·.1)) a b =
      (compareExportRows ((sortedCategories s).map (·.1)) b a).swap := Std.OrientedCmp.eq_swap
  unfold Precedes at h h'
  rw [h, h'] at hswap
  cases hswap

section Sorting

variable (s : FinStore)

theorem selectedProjects_pairwise (inScope : Nat → Project → Bool) :
    (selectedProjects s inScope).Pairwise fun a b => a.1 < b.1 :=
  s.projects.sorted.filter _

theorem exportGroups_eq {maxRows : Nat} {inScope : Nat → Project → Bool}
    (hmax : (selectedProjects s inScope).length ≤ maxRows) :
    exportGroups s maxRows inScope =
      .ok (groupRows (sortedRows s (selectedProjects s inScope))) := by
  have hread := Keyset.readAll_eq (show 2 ≤ fetchBatch by decide)
    (selectedProjects_pairwise s inScope)
  simp only [exportGroups, if_neg (Nat.not_lt.mpr hmax), hread]

variable {s} {projects : List (Nat × Project)}

theorem sortedRows_perm : (sortedRows s projects).Perm (projects.map (exportRow s)) :=
  List.perm_insertionSort _ _

theorem mem_sortedRows {row : ExportProjectRow} :
    row ∈ sortedRows s projects ↔ ∃ project ∈ projects, exportRow s project = row := by
  rw [sortedRows_perm.mem_iff, List.mem_map]

theorem sortedRows_pairwise (hids : projects.Pairwise fun a b => a.1 < b.1) :
    (sortedRows s projects).Pairwise (Precedes s) := by
  have hsorted : (sortedRows s projects).Pairwise fun a b =>
      compareExportRows ((sortedCategories s).map (·.1)) a b ≠ .gt :=
    insertionSort_pairwise _ _
  have hdistinct : (sortedRows s projects).Pairwise fun a b => a.projectId ≠ b.projectId := by
    rw [sortedRows_perm.pairwise_iff (fun h => h.symm), List.pairwise_map]
    simp only [exportRow_projectId]
    exact hids.imp Nat.ne_of_lt
  apply (hsorted.and hdistinct).imp
  intro a b h
  unfold Precedes
  cases hcmp : compareExportRows ((sortedCategories s).map (·.1)) a b with
  | lt => rfl
  | eq => exact absurd (projectId_of_compare_eq hcmp) h.2
  | gt => exact absurd hcmp h.1

end Sorting

section Parts

variable {s : FinStore} {projects : List (Nat × Project)}

variable {rows : List ExportProjectRow}

theorem mem_groupRows {g : ExportGroup} :
    g ∈ groupRows rows ↔ g.bizCategoryName ∈ rows.map (·.bizCategoryName) ∧
      g.rows = rows.filter (fun row => row.bizCategoryName = g.bizCategoryName) ∧
      g.subtotal = calcSubtotal g.rows := by
  rw [groupRows, List.mem_map]
  constructor
  · intro h
    rcases h with ⟨pair, hpair, heq⟩
    rw [← heq]
    have hmem := mem_groupsBy.mp hpair
    exact ⟨hmem.1, hmem.2, rfl⟩
  · intro h
    refine ⟨(g.bizCategoryName, g.rows), mem_groupsBy.mpr ⟨h.1, h.2.1⟩, ?_⟩
    rw [← h.2.2]

theorem exists_group {a : ExportProjectRow} (ha : a ∈ rows) :
    ∃ g ∈ groupRows rows, g.bizCategoryName = a.bizCategoryName ∧ a ∈ g.rows ∧
      g.rows = rows.filter (fun row => row.bizCategoryName = a.bizCategoryName) := by
  obtain ⟨hgroup, hmem⟩ := @mem_group _ _ _ (fun row : ExportProjectRow => row.bizCategoryName) _ _ ha
  exact ⟨_, List.mem_map_of_mem hgroup, rfl, hmem, rfl⟩

theorem groupRows_partition (rows : List ExportProjectRow) :
    ((groupRows rows).flatMap (·.rows)).Perm rows := by
  rw [groupRows, List.flatMap_map]
  exact groupsBy_perm _ rows

/-- The rows without a category make the last group exactly when every other name comes before
them on some row. -/
theorem uncategorisedLast_iff (hids : projects.Pairwise fun a b => a.1 < b.1) :
    ((groupRows (sortedRows s projects)).Pairwise fun g _ => g.bizCategoryName ≠ none) ↔
      ∀ a ∈ projects, a.2.bizCategoryName ≠ none → ∃ b ∈ projects,
        b.2.bizCategoryName = a.2.bizCategoryName ∧ ∀ c ∈ projects, c.2.bizCategoryName = none →
          Precedes s (exportRow s b) (exportRow s c) := by
  have hgroups : ((groupRows (sortedRows s projects)).Pairwise
      fun g _ => g.bizCategoryName ≠ none) ↔
      ((groupsBy (·.bizCategoryName) (sortedRows s projects)).Pairwise fun g _ => g.1 ≠ none) := by
    rw [groupRows, List.pairwise_map]
  rw [hgroups, groupsBy_last_iff (fun _ _ => Precedes.asymm) (sortedRows_pairwise hids)]
  constructor
  · intro h a ha hname
    obtain ⟨b, hb, hsame, hall⟩ := h _ (mem_sortedRows.mpr ⟨a, ha, rfl⟩) hname
    obtain ⟨p, hp, rfl⟩ := mem_sortedRows.mp hb
    exact ⟨p, hp, hsame, fun c hc => hall _ (mem_sortedRows.mpr ⟨c, hc, rfl⟩)⟩
  · intro h a ha hname
    obtain ⟨p, hp, rfl⟩ := mem_sortedRows.mp ha
    obtain ⟨b, hb, hsame, hall⟩ := h p hp hname
    refine ⟨_, mem_sortedRows.mpr ⟨b, hb, rfl⟩, hsame, fun c hc => ?_⟩
    obtain ⟨q, hq, rfl⟩ := mem_sortedRows.mp hc
    exact hall q hq

theorem ordered_iff (hids : projects.Pairwise fun a b => a.1 < b.1) :
    (∀ g ∈ groupRows (sortedRows s projects), g.rows.Pairwise YearThenId) ↔
      ∀ a ∈ projects, ∀ b ∈ projects, a.2.bizCategoryName = b.2.bizCategoryName →
        categoryIndex ((sortedCategories s).map (·.1)) (exportRow s a) <
          categoryIndex ((sortedCategories s).map (·.1)) (exportRow s b) →
        YearThenId (exportRow s a) (exportRow s b) := by
  have hsorted := sortedRows_pairwise (s := s) hids
  constructor
  · intro h a ha b hb hname hindex
    have hrow : exportRow s a ∈ sortedRows s projects := mem_sortedRows.mpr ⟨a, ha, rfl⟩
    have hrow' : exportRow s b ∈ sortedRows s projects := mem_sortedRows.mpr ⟨b, hb, rfl⟩
    obtain ⟨g, hg, -, hin, hrows⟩ := exists_group hrow
    have hin' : exportRow s b ∈ g.rows := by
      rw [hrows, List.mem_filter]
      exact ⟨hrow', decide_eq_true hname.symm⟩
    have hboth : g.rows.Pairwise fun a b => Precedes s a b ∧ YearThenId a b := by
      refine List.Pairwise.and ?_ (h g hg)
      rw [hrows]
      exact hsorted.filter _
    have hne : exportRow s a ≠ exportRow s b := by
      intro heq
      rw [heq] at hindex
      exact Nat.lt_irrefl _ hindex
    have hlt : Precedes s (exportRow s a) (exportRow s b) :=
      compareExportRows_eq_lt.mpr (Or.inl hindex)
    rcases related_of_pairwise hboth hin hin' hne with h | h
    · exact h.2
    · exact absurd h.1 hlt.asymm
  · intro h g hg
    obtain ⟨-, hrows, -⟩ := mem_groupRows.mp hg
    have hpair : g.rows.Pairwise (Precedes s) := by
      rw [hrows]
      exact hsorted.filter _
    refine hpair.imp_of_mem ?_
    intro a b ha hb hab
    rw [hrows, List.mem_filter, decide_eq_true_eq] at ha hb
    obtain ⟨a, hin, rfl⟩ := mem_sortedRows.mp ha.1
    obtain ⟨b, hin', rfl⟩ := mem_sortedRows.mp hb.1
    rcases compareExportRows_eq_lt.mp hab with hindex | hsame
    · exact h a hin b hin' (ha.2.trans hb.2.symm) hindex
    · exact hsame.2

theorem oneGroupPerCategory_iff :
    ((groupRows (sortedRows s projects)).Pairwise fun g h =>
        ∀ a ∈ g.rows, ∀ b ∈ h.rows, a.bizCategoryId ≠ b.bizCategoryId) ↔
      ∀ a ∈ projects, ∀ b ∈ projects,
        a.2.bizCategoryId = b.2.bizCategoryId → a.2.bizCategoryName = b.2.bizCategoryName := by
  constructor
  · intro h a ha b hb hid
    by_contra hname
    obtain ⟨g, hg, hgname, hin, -⟩ := exists_group (mem_sortedRows.mpr ⟨a, ha, rfl⟩)
    obtain ⟨g', hg', hgname', hin', -⟩ := exists_group (mem_sortedRows.mpr ⟨b, hb, rfl⟩)
    have hne : g ≠ g' := by
      intro heq
      rw [heq] at hgname
      exact hname (hgname.symm.trans hgname')
    rcases related_of_pairwise h hg hg' hne with hapart | hapart
    · exact hapart _ hin _ hin' hid
    · exact hapart _ hin' _ hin hid.symm
  · intro h
    have hkeys : (groupRows (sortedRows s projects)).Pairwise fun g g' =>
        g.bizCategoryName ≠ g'.bizCategoryName := by
      rw [groupRows, List.pairwise_map]
      exact groupsBy_keys _ _
    refine hkeys.imp_of_mem ?_
    intro g g' hg hg' hne a ha b hb hid
    rw [(mem_groupRows.mp hg).2.1, List.mem_filter, decide_eq_true_eq] at ha
    rw [(mem_groupRows.mp hg').2.1, List.mem_filter, decide_eq_true_eq] at hb
    obtain ⟨a, hin, rfl⟩ := mem_sortedRows.mp ha.1
    obtain ⟨b, hin', rfl⟩ := mem_sortedRows.mp hb.1
    exact hne (ha.2.symm.trans ((h a hin b hin' hid).trans hb.2))

/-! ### Subtotals -/

theorem foldl_addTexts (texts : List String) (total : Decimal) :
    texts.foldl addTexts total.toFixed =
      ((texts.map signedDecimalOf).foldl Decimal.plus total).toFixed := by
  induction texts generalizing total with
  | nil => rfl
  | cons text texts ih =>
      rw [List.foldl_cons, List.map_cons, List.foldl_cons, addTexts, signedDecimalOf_toFixed, ih]

theorem calcSubtotal_text (rows : List ExportProjectRow) (column : SumColumn) :
    (calcSubtotal rows).text column = (sumAmounts (rows.map (·.amount column))).toFixed := by
  have hsum : ∀ text : ExportProjectRow → String, (rows.map text).foldl addTexts "0.00" =
      (sumAmounts (rows.map fun row => signedDecimalOf (text row))).toFixed := by
    intro text
    have hzero : "0.00" = Decimal.toFixed 0 := by decide
    rw [hzero, foldl_addTexts, List.map_map]
    rfl
  cases column with
  | totalInvoiced => exact hsum (·.totalInvoiced)
  | totalReceived => exact hsum (·.totalReceived)
  | totalSubcontractPaid => exact hsum (·.totalSubcontractPaid)
  | equity => exact hsum (·.equity)

theorem subtotals_iff (rows : List ExportProjectRow) :
    (∀ g ∈ groupRows rows, ∀ column,
        g.subtotal.text column = Decimal.toFixed (g.rows.map (·.amount column)).sum) ↔
      ∀ (name : Option String) (column : SumColumn),
        sumAmounts ((rows.filter fun row => row.bizCategoryName = name).map (·.amount column)) =
          ((rows.filter fun row => row.bizCategoryName = name).map (·.amount column)).sum := by
  constructor
  · intro h name column
    by_cases hname : name ∈ rows.map (·.bizCategoryName)
    · rw [List.mem_map] at hname
      obtain ⟨a, ha, heq⟩ := hname
      subst heq
      obtain ⟨g, hg, -, -, hrows⟩ := exists_group ha
      have hsub := h g hg column
      rw [(mem_groupRows.mp hg).2.2, calcSubtotal_text, hrows] at hsub
      exact toFixed_injective hsub
    · have hempty : (rows.filter fun row => row.bizCategoryName = name) = [] := by
        rw [List.filter_eq_nil_iff]
        intro a ha hsame
        exact hname (List.mem_map.mpr ⟨a, ha, of_decide_eq_true hsame⟩)
      rw [hempty]
      rfl
  · intro h g hg column
    obtain ⟨-, hrows, hsub⟩ := mem_groupRows.mp hg
    rw [hsub, calcSubtotal_text, hrows, h]

/-! ### The sheet -/

theorem linesBetween_append (fromRow toRow : Nat) (lines more : List (Nat × SheetLine)) :
    linesBetween fromRow toRow (lines ++ more) =
      linesBetween fromRow toRow lines ++ linesBetween fromRow toRow more :=
  List.filterMap_append

theorem linesBetween_eq_nil {fromRow toRow : Nat} {lines : List (Nat × SheetLine)}
    (h : ∀ line ∈ lines, line.1 < fromRow ∨ toRow < line.1) :
    linesBetween fromRow toRow lines = [] := by
  unfold linesBetween
  rw [List.filterMap_eq_nil_iff]
  intro line hline
  have hout := h line hline
  split
  · exact if_neg (by omega)
  · rfl

theorem mem_dataLines {rows : List ExportProjectRow} {rowNumber seq : Nat}
    {line : Nat × SheetLine} (h : line ∈ dataLines rowNumber seq rows) :
    (∃ n row, line.2 = .data n row) ∧ rowNumber ≤ line.1 ∧
      line.1 < rowNumber + rows.length := by
  induction rows generalizing rowNumber seq with
  | nil => cases h
  | cons row rows ih =>
      rcases List.mem_cons.mp h with h | h
      · rw [h, List.length_cons]
        exact ⟨⟨_, _, rfl⟩, Nat.le_refl _, by omega⟩
      · obtain ⟨hdata, hlow, hhigh⟩ := ih h
        rw [List.length_cons]
        exact ⟨hdata, by omega, by omega⟩

theorem linesBetween_dataLines (rows : List ExportProjectRow) (rowNumber seq toRow : Nat)
    (hto : rowNumber + rows.length ≤ toRow + 1) :
    ∀ fromRow ≤ rowNumber,
      linesBetween fromRow toRow (dataLines rowNumber seq rows) = rows := by
  induction rows generalizing rowNumber seq with
  | nil =>
      intro fromRow _
      rfl
  | cons row rows ih =>
      intro fromRow hfrom
      rw [List.length_cons] at hto
      have hrest := ih (rowNumber + 1) (seq + 1) (by omega) fromRow (by omega)
      have hhere : fromRow ≤ rowNumber ∧ rowNumber ≤ toRow := by omega
      show linesBetween fromRow toRow
        ([(rowNumber, .data (seq + 1) row)] ++ dataLines (rowNumber + 1) (seq + 1) rows) = _
      rw [linesBetween_append, hrest]
      simp [linesBetween, hhere]

theorem le_of_mem_sheetLines {groups : List ExportGroup} {rowNumber seq : Nat}
    {line : Nat × SheetLine} (h : line ∈ sheetLines rowNumber seq groups) :
    rowNumber ≤ line.1 := by
  induction groups generalizing rowNumber seq with
  | nil => cases h
  | cons group groups ih =>
      rw [sheetLines, List.mem_cons, List.mem_append] at h
      rcases h with h | h | h
      · rw [h]
      · have hlow := (mem_dataLines h).2.1
        omega
      · split at h
        · rcases List.mem_cons.mp h with h | h
          · rw [h]
            show rowNumber ≤ rowNumber + 1 + group.rows.length
            omega
          · have hlow := ih h
            omega
        · have hlow := ih h
          omega

theorem subtotal_line {groups : List ExportGroup} {rowNumber seq n fromRow toRow : Nat}
    {subtotal : ExportSubtotal}
    (h : (n, .subtotal subtotal fromRow toRow) ∈ sheetLines rowNumber seq groups) :
    rowNumber < fromRow ∧ ∃ g ∈ groups, subtotal = g.subtotal ∧
      linesBetween fromRow toRow (sheetLines rowNumber seq groups) = g.rows := by
  induction groups generalizing rowNumber seq with
  | nil => cases h
  | cons group groups ih =>
      have hhead : ∀ fromRow toRow, ∀ more : List (Nat × SheetLine),
          linesBetween fromRow toRow
            ((rowNumber, .group (group.bizCategoryName.getD unclassifiedGroupName)) :: more) =
          linesBetween fromRow toRow more := fun _ _ _ => rfl
      rw [sheetLines, List.mem_cons, List.mem_append] at h
      rw [sheetLines, hhead, linesBetween_append]
      -- what stands in front of a later subtotal's rows is not between them
      have hlater : ∀ rest, rowNumber + 1 + group.rows.length < fromRow + 1 →
          linesBetween fromRow toRow (dataLines (rowNumber + 1) seq group.rows) ++ rest = rest := by
        intro rest hfrom
        rw [linesBetween_eq_nil, List.nil_append]
        intro line hline
        have hhigh := (mem_dataLines hline).2.2
        exact Or.inl (by omega)
      rcases h with h | h | h
      · cases h
      · obtain ⟨⟨_, _, hdata⟩, -⟩ := mem_dataLines h
        cases hdata
      · by_cases hrows : group.rows.length > 0
        · rw [if_pos hrows, List.mem_cons] at h
          rw [if_pos hrows]
          rcases h with h | h
          · simp only [Prod.mk.injEq, SheetLine.subtotal.injEq] at h
            obtain ⟨-, hsub, hfrom, hto⟩ := h
            refine ⟨by omega, group, List.mem_cons_self, hsub, ?_⟩
            rw [linesBetween_dataLines _ _ _ _ (by omega) _ (by omega)]
            have hnone : linesBetween fromRow toRow
                ((rowNumber + 1 + group.rows.length, .subtotal group.subtotal (rowNumber + 1)
                  (rowNumber + 1 + group.rows.length - 1)) ::
                  sheetLines (rowNumber + 1 + group.rows.length + 1)
                    (seq + group.rows.length) groups) = [] := by
              apply linesBetween_eq_nil
              intro line hline
              rcases List.mem_cons.mp hline with hline | hline
              · rw [hline]
                exact Or.inr (by omega)
              · have hlow := le_of_mem_sheetLines hline
                exact Or.inr (by omega)
            rw [hnone, List.append_nil]
          · obtain ⟨hfrom, g, hg, hsub, hlines⟩ := ih h
            refine ⟨by omega, g, List.mem_cons_of_mem _ hg, hsub, ?_⟩
            rw [hlater _ (by omega), ← hlines]
            rfl
        · rw [if_neg hrows] at h
          rw [if_neg hrows]
          obtain ⟨hfrom, g, hg, hsub, hlines⟩ := ih h
          refine ⟨by omega, g, List.mem_cons_of_mem _ hg, hsub, ?_⟩
          rw [hlater _ (by omega), hlines]

end Parts

/-! ## The whole export -/

/-- An export within the limit keeps its promise exactly when the names of the categories say
as much as their ids, and nothing is rounded. -/
theorem exportGroups_promised_iff (s : FinStore) (inScope : Nat → Project → Bool) (maxRows : Nat)
    (hmax : (selectedProjects s inScope).length ≤ maxRows) :
    ∃ groups, exportGroups s maxRows inScope = .ok groups ∧
      (PromisedExport s (selectedProjects s inScope) groups ↔
        SettledCategories s (selectedProjects s inScope)) := by
  refine ⟨_, exportGroups_eq s hmax, ?_⟩
  have hids := selectedProjects_pairwise s inScope
  constructor
  · intro h
    exact
      { named := oneGroupPerCategory_iff.mp h.oneGroupPerCategory
        placed := (ordered_iff hids).mp h.ordered
        unnamedLast := (uncategorisedLast_iff hids).mp h.uncategorisedLast
        exact := (subtotals_iff _).mp h.subtotals }
  · intro h
    exact
      { partition := (groupRows_partition _).trans sortedRows_perm
        uncategorisedLast := (uncategorisedLast_iff hids).mpr h.unnamedLast
        ordered := (ordered_iff hids).mpr h.placed
        oneGroupPerCategory := oneGroupPerCategory_iff.mpr h.named
        subtotals := (subtotals_iff _).mpr h.exact
        sheet := fun _ _ _ _ hline => (subtotal_line hline).2 }

section Renamed

def projectOf (name : String) (bizCategoryId : Nat) (bizCategoryName : String) : Project where
  name := name
  year := 2024
  businessKey := name
  completenessDocs := none
  regionId := none
  regionName := none
  progressId := none
  progressName := none
  progressSemantic := none
  bizCategoryId := some bizCategoryId
  bizCategoryName := some bizCategoryName
  partyA := none
  generalContractor := none
  managementFee := none
  subcontractors := []
  contractStartDate := none
  contractEndDate := none
  contractAmount := none
  paymentNode := none
  tentativeAuditedAmount := none
  settlement := none
  miscExpense := none
  remark := none
  dataRevision := 0
  updatedAt := 0
  deletedBy := none
  deletedAt := none

/-- A category got a new name between the first project and the second. -/
def renamedCategory : FinStore :=
  { FinStore.empty with
    projects := (Table.empty.insert 1 (projectOf "滨江路改造" 1 "市政")).insert 2
      (projectOf "科技园道路" 1 "市政工程")
    financeDictItems := Table.empty.insert 1 ⟨.bizCategory, "市政工程", none, 0, .active⟩ }

theorem exportGroups_promised_iff_renamed :
    ∃ groups, exportGroups renamedCategory 100000 (fun _ _ => true) = .ok groups ∧
      (PromisedExport renamedCategory (selectedProjects renamedCategory fun _ _ => true) groups ↔
        SettledCategories renamedCategory
          (selectedProjects renamedCategory fun _ _ => true)) :=
  exportGroups_promised_iff renamedCategory (fun _ _ => true) 100000 (by decide)

/-- The projects under the old name and those under the new one are two groups of one category. -/
theorem renamed_category_split :
    ∃ groups, exportGroups renamedCategory 100000 (fun _ _ => true) = .ok groups ∧
      ¬ PromisedExport renamedCategory (selectedProjects renamedCategory fun _ _ => true)
        groups := by
  refine ⟨_, exportGroups_eq renamedCategory (by decide), fun h => ?_⟩
  have hnamed := oneGroupPerCategory_iff.mp h.oneGroupPerCategory
  have hone : (1, projectOf "滨江路改造" 1 "市政") ∈
      selectedProjects renamedCategory fun _ _ => true := by decide
  have htwo : (2, projectOf "科技园道路" 1 "市政工程") ∈
      selectedProjects renamedCategory fun _ _ => true := by decide
  exact absurd (hnamed _ hone _ htwo rfl) (by decide)

end Renamed

end Wbme.Fin

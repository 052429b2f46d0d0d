import Wbme.Fin.ImportParser

/-! # From the rows of a sheet to inputs

What an accepted worksheet gives: which rows become inputs, under which category, and how many
there are. Only named project rows are counted by the parser, so the limit does not bound the
inputs: rows without a name and group rows read again as data come on top.
-/

namespace Wbme.Fin

open Lib

namespace ImportRows

/-! ## One row at a time -/

variable {cells : List Cell} {input : ProjectRowInput}

variable {row : ParsedRow}

section Inputs

variable (u : Unicode) (number : String → Option Nat) (validGroups : List String)

/-- The name of a group row is that of a category, or says that there is none. -/
def opensGroup (row : ParsedRow) : Bool :=
  row.kind == .group &&
    (groupOf row).all fun name => validGroups.contains (normalizeProjectName u name)

def categoryAfter (category : Option String) (row : ParsedRow) : Option String :=
  if opensGroup u validGroups row then groupOf row else category

def inputOf (category : Option String) (row : ParsedRow) : Option ProjectRowInput :=
  match row.kind with
  | .group =>
      if opensGroup u validGroups row then none
      else some (emptyRowInput row.rowNumber (row.groupName.getD ""))
  | .project => some (row.toInput number category)
  | .subtotal => none
  | .empty => none

theorem buildRowInputs_cons (category : Option String) (row : ParsedRow) (rows : List ParsedRow) :
    buildRowInputs u number validGroups category (row :: rows) =
      (inputOf u number validGroups category row).toList ++
        buildRowInputs u number validGroups (categoryAfter u validGroups category row) rows := by
  cases hkind : row.kind with
  | group =>
      have hopens : opensGroup u validGroups row = (groupOf row).all
          (fun name => validGroups.contains (normalizeProjectName u name)) := by
        simp only [opensGroup, hkind, beq_self_eq_true, Bool.true_and]
      simp only [buildRowInputs, inputOf, categoryAfter, hkind, ← hopens]
      by_cases hknown : opensGroup u validGroups row = true
      · simp [hknown]
      · simp [hknown]
  | subtotal => simp [buildRowInputs, inputOf, categoryAfter, opensGroup, hkind]
  | project => simp [buildRowInputs, inputOf, categoryAfter, opensGroup, hkind]
  | empty => simp [buildRowInputs, inputOf, categoryAfter, opensGroup, hkind]

theorem buildRowInputs_append (category : Option String) (rows more : List ParsedRow) :
    buildRowInputs u number validGroups category (rows ++ more) =
      buildRowInputs u number validGroups category rows ++
        buildRowInputs u number validGroups (rows.foldl (categoryAfter u validGroups) category)
          more := by
  induction rows generalizing category with
  | nil => rfl
  | cons row rows ih =>
      rw [List.cons_append, buildRowInputs_cons, ih, buildRowInputs_cons, List.append_assoc]
      rfl

theorem inputOf_rowNumber {category : Option String}
    (h : inputOf u number validGroups category row = some input) :
    input.rowNumber = row.rowNumber := by
  unfold inputOf at h
  split at h
  · split at h
    · cases h
    · cases h
      rfl
  · cases h
    rfl
  · cases h
  · cases h

theorem buildRowInputs_rowNumbers (category : Option String) (rows : List ParsedRow) :
    ((buildRowInputs u number validGroups category rows).map (·.rowNumber)).Sublist
      (rows.map (·.rowNumber)) := by
  induction rows generalizing category with
  | nil => exact List.Sublist.refl _
  | cons row rows ih =>
      rw [buildRowInputs_cons, List.map_append, List.map_cons]
      cases h : inputOf u number validGroups category row with
      | none => exact (ih _).cons row.rowNumber
      | some input =>
          rw [Option.toList_some, List.map_singleton, inputOf_rowNumber u number validGroups h]
          exact (ih _).cons_cons row.rowNumber

theorem mem_buildRowInputs {category : Option String} {rows : List ParsedRow}
    {input : ProjectRowInput} (h : input ∈ buildRowInputs u number validGroups category rows) :
    ∃ row ∈ rows, ∃ c, inputOf u number validGroups c row = some input := by
  induction rows generalizing category with
  | nil => cases h
  | cons row rows ih =>
      rw [buildRowInputs_cons, List.mem_append, Option.mem_toList] at h
      cases h with
      | inl h => exact ⟨row, List.mem_cons_self, category, h⟩
      | inr h =>
          obtain ⟨row', hmem, c, hc⟩ := ih h
          exact ⟨row', List.mem_cons_of_mem row hmem, c, hc⟩

end Inputs

/-! ## Rows of a sheet -/

/-- Column A is missing, column B says something, and columns C and D are blank. -/
def isHeaderRow (cells : List Cell) : Bool := isGroupRow cells && (textAt cells 1).isSome

/-- A row whose first four columns say nothing, but another one does. -/
def isUnnamedGroup (cells : List Cell) : Bool :=
  !isEmptyRow cells && isGroupRow cells && (textAt cells 1).isNone

def headerCategory (cells : List Cell) : Option String :=
  (textAt cells 1).filter (· ≠ unclassifiedGroupName)

theorem isSubtotalRow_group (h : isGroupRow cells = true) : isSubtotalRow cells = false := by
  have hA : textAt cells 0 = none := by
    simp [isGroupRow] at h
    exact h.1.1.1
  simp [isSubtotalRow, hA, normalizeHeaderText, subtotalMarker]

theorem isEmptyRow_of_text {cells : List Cell} {i : Nat} {text : String}
    (h : textAt cells i = some text) (hne : text ≠ "") : isEmptyRow cells = false := by
  unfold textAt at h
  cases hcell : cells[i]? with
  | none =>
      rw [hcell] at h
      cases h
  | some cell =>
      rw [hcell] at h
      have htext : cell.text = some text := h
      rw [isEmptyRow, List.all_eq_false]
      refine ⟨cell, List.mem_of_getElem? hcell, ?_⟩
      simp [isBlank, htext, hne]

theorem isEmptyRow_header (h : isHeaderRow cells = true) : isEmptyRow cells = false := by
  unfold isHeaderRow isGroupRow at h
  simp at h
  obtain ⟨⟨⟨⟨-, hne⟩, -⟩, -⟩, hsome⟩ := h
  obtain ⟨text, htext⟩ := Option.isSome_iff_exists.mp hsome
  exact isEmptyRow_of_text htext fun he => hne (by rw [htext, he])

theorem parsedRow_header (n : Nat) (h : isHeaderRow cells = true) :
    parsedRow cells n = some ⟨n, .group, textAt cells 1, cells.map (·.text)⟩ := by
  have hgroup : isGroupRow cells = true := by
    unfold isHeaderRow at h
    exact (Bool.and_eq_true_iff.mp h).1
  simp [parsedRow, isEmptyRow_header h, isSubtotalRow_group hgroup, hgroup]

theorem parsedRow_subtotal (n : Nat) (hempty : isEmptyRow cells = false)
    (h : isSubtotalRow cells = true) :
    parsedRow cells n = some ⟨n, .subtotal, none, cells.map (·.text)⟩ := by
  simp [parsedRow, hempty, h]

theorem parsedRow_isSome (n : Nat) (h : isEmptyRow cells = false) :
    ∃ row, parsedRow cells n = some row ∧ row.kind ≠ .empty := by
  unfold parsedRow
  rw [if_neg (by simp [h])]
  split
  · exact ⟨_, rfl, by simp⟩
  · split <;> exact ⟨_, rfl, by simp⟩

section Sheet

variable (env : ImportEnvironment) (items : Table FinanceDictItem)

/-- A header whose name is that of a category, or says that there is none. -/
def opensCategory (cells : List Cell) : Bool :=
  isHeaderRow cells &&
    (headerCategory cells).all fun name =>
      (validGroupsOf env.unicode items).contains (normalizeProjectName env.unicode name)

def inputsOf (file : ParsedFile) : List ProjectRowInput :=
  buildRowInputs env.unicode env.number (validGroupsOf env.unicode items) none file.rows

def categoryPast (category : Option String) (rows : List (List Cell × Nat)) : Option String :=
  (rows.filterMap fun p => parsedRow p.1 p.2).foldl
    (categoryAfter env.unicode (validGroupsOf env.unicode items)) category

variable (category : Option String)

theorem categoryPast_append (rows more : List (List Cell × Nat)) :
    categoryPast env items category (rows ++ more) =
      categoryPast env items (categoryPast env items category rows) more := by
  simp [categoryPast]

theorem categoryPast_opens (n : Nat) (h : opensCategory env items cells = true) :
    categoryPast env items category [(cells, n)] = headerCategory cells := by
  obtain ⟨hheader, hall⟩ := Bool.and_eq_true_iff.mp h
  have hopens : opensGroup env.unicode (validGroupsOf env.unicode items)
      ⟨n, .group, textAt cells 1, cells.map (·.text)⟩ = true := hall
  have hrow := parsedRow_header n hheader
  simp only [categoryPast, List.filterMap_cons, List.filterMap_nil, hrow, List.foldl_cons,
    List.foldl_nil, categoryAfter, hopens, if_true]
  rfl

variable {n : Nat}

theorem categoryAfter_quiet (hrow : parsedRow cells n = some row)
    (hopens : opensCategory env items cells = false) (hnamed : isUnnamedGroup cells = false) :
    categoryAfter env.unicode (validGroupsOf env.unicode items) category row = category := by
  have hclosed : opensGroup env.unicode (validGroupsOf env.unicode items) row = false := by
    unfold parsedRow at hrow
    by_cases hempty : isEmptyRow cells = true
    · rw [if_pos hempty] at hrow
      cases hrow
    rw [if_neg hempty] at hrow
    by_cases hsub : isSubtotalRow cells = true
    · rw [if_pos hsub] at hrow
      cases hrow
      rfl
    rw [if_neg hsub] at hrow
    by_cases hgroup : isGroupRow cells = true
    · rw [if_pos hgroup] at hrow
      cases hrow
      have hsome : (textAt cells 1).isSome = true := by
        simp [isUnnamedGroup, hempty, hgroup] at hnamed
        simpa [Option.isSome_iff_ne_none] using hnamed
      have hheader : isHeaderRow cells = true := by
        rw [isHeaderRow, hgroup, hsome]
        rfl
      rw [opensCategory, hheader, Bool.true_and] at hopens
      exact hopens
    · rw [if_neg hgroup] at hrow
      cases hrow
      rfl
  rw [categoryAfter, hclosed]
  rfl

theorem categoryPast_quiet (category : Option String) {rows : List (List Cell × Nat)}
    (h : ∀ p ∈ rows, opensCategory env items p.1 = false ∧ isUnnamedGroup p.1 = false) :
    categoryPast env items category rows = category := by
  induction rows with
  | nil => rfl
  | cons p rows ih =>
      obtain ⟨hopens, hnamed⟩ := h p List.mem_cons_self
      have hone : categoryPast env items category [p] = category := by
        cases hrow : parsedRow p.1 p.2 with
        | none => simp [categoryPast, hrow]
        | some row =>
            simp only [categoryPast, List.filterMap_cons, List.filterMap_nil, hrow,
              List.foldl_cons, List.foldl_nil]
            exact categoryAfter_quiet env items category hrow hopens hnamed
      have hsplit := categoryPast_append env items category [p] rows
      rw [List.singleton_append] at hsplit
      rw [hsplit, hone]
      exact ih fun q hq => h q (List.mem_cons_of_mem p hq)

/-- What the rows above a project row say of its category. -/
structure CategoryAt (before : List (List Cell × Nat)) (category : Option String) : Prop where
  /-- It is that of the nearest header of a category. -/
  nearest : ∀ earlier header m between, before = earlier ++ (header, m) :: between →
    opensCategory env items header = true →
    (∀ p ∈ between, opensCategory env items p.1 = false ∧ isUnnamedGroup p.1 = false) →
    category = headerCategory header
  /-- Above the first one there is none. -/
  first : (∀ p ∈ before, opensCategory env items p.1 = false ∧ isUnnamedGroup p.1 = false) →
    category = none

theorem categoryAt_past (before : List (List Cell × Nat)) :
    CategoryAt env items before (categoryPast env items none before) where
  nearest earlier header m between hsplit hopens hquiet := by
    rw [hsplit, categoryPast_append, ← List.singleton_append, categoryPast_append,
      categoryPast_opens env items _ m hopens]
    exact categoryPast_quiet env items _ hquiet
  first hquiet := categoryPast_quiet env items none hquiet

/-- What becomes of the rows of a sheet. Nothing is said of the category below a row whose first
four columns say nothing, nor of the further cells of a header that no category is named like. -/
structure ImportedRows (sheet : Worksheet) (file : ParsedFile) : Prop where
  /-- A row with something in it is one row of the file, with its cells, and of one kind. -/
  classified : ∀ cells n, (cells, n) ∈ sheet.numbered → isEmptyRow cells = false →
    ∃ row, (∀ r, r ∈ file.rows ∧ r.rowNumber = n ↔ r = row) ∧
      row.cells = cells.map (·.text) ∧ row.kind ≠ .empty ∧
      (isSubtotalRow cells = true → row.kind = .subtotal) ∧
      (isHeaderRow cells = true → row.kind = .group) ∧
      (isProjectRow cells = true → row.kind = .project)
  /-- A project row is one input, with its cells, under the category of the nearest header. -/
  projects : ∀ before cells n after, sheet.numbered = before ++ (cells, n) :: after →
    isProjectRow cells = true →
    ∃ category, CategoryAt env items before category ∧
      ∀ input, input ∈ inputsOf env items file ∧ input.rowNumber = n ↔
        input = (ParsedRow.mk n .project none (cells.map (·.text))).toInput env.number category
  /-- A header that no category is named like is one input with its name and no year. -/
  reinterpreted : ∀ cells n, (cells, n) ∈ sheet.numbered → isHeaderRow cells = true →
    opensCategory env items cells = false →
    ∃ found, (∀ input, input ∈ inputsOf env items file ∧ input.rowNumber = n ↔ input = found) ∧
      textAt cells 1 = some found.name ∧ found.year = .missing
  /-- There are no other inputs. -/
  others : ∀ input ∈ inputsOf env items file, ∃ cells, (cells, input.rowNumber) ∈ sheet.numbered ∧
    (isProjectRow cells = true ∨
      isHeaderRow cells = true ∧ opensCategory env items cells = false)
  /-- The inputs stand in the order of the sheet. -/
  ordered : (inputsOf env items file).Pairwise fun a b => a.rowNumber < b.rowNumber

variable {env items} {sheet : Worksheet} {file : ParsedFile}

theorem file_pairwise (h : parseSheet sheet = .ok file) :
    file.rows.Pairwise fun a b => a.rowNumber < b.rowNumber := by
  rw [parseSheet_rows h]
  refine (numbered_pairwise sheet).filterMap _ fun p q hlt row hrow other hother => ?_
  rw [parsedRow_rowNumber hrow, parsedRow_rowNumber hother]
  exact hlt

theorem inputs_pairwise (h : parseSheet sheet = .ok file) :
    (inputsOf env items file).Pairwise fun a b => a.rowNumber < b.rowNumber := by
  have hrows : (file.rows.map (·.rowNumber)).Pairwise (· < ·) :=
    List.pairwise_map.mpr (file_pairwise h)
  have hsub := buildRowInputs_rowNumbers env.unicode env.number
    (validGroupsOf env.unicode items) none file.rows
  exact List.pairwise_map.mp (hrows.sublist hsub)

theorem only_of_pairwise {α : Type} {f : α → Nat} {l : List α} {x : α}
    (h : l.Pairwise fun a b => f a < f b) (hx : x ∈ l) (y : α) :
    y ∈ l ∧ f y = f x ↔ y = x := by
  constructor
  · rintro ⟨hy, heq⟩
    have hnodup : (l.map f).Nodup :=
      (List.pairwise_map.mpr h).imp fun hab => Nat.ne_of_lt hab
    exact List.inj_on_of_nodup_map hnodup hy hx heq
  · intro heq
    rw [heq]
    exact ⟨hx, rfl⟩

theorem inputs_split (h : parseSheet sheet = .ok file) {before after : List (List Cell × Nat)}
    (hsplit : sheet.numbered = before ++ (cells, n) :: after) (hrow : parsedRow cells n = some row)
    (hinput : inputOf env.unicode env.number (validGroupsOf env.unicode items)
      (categoryPast env items none before) row = some input) : input ∈ inputsOf env items file := by
  have hrows : file.rows = (before.filterMap fun p => parsedRow p.1 p.2) ++
      row :: (after.filterMap fun p => parsedRow p.1 p.2) := by
    rw [parseSheet_rows h, hsplit, List.filterMap_append, List.filterMap_cons]
    simp only [hrow]
  rw [inputsOf, hrows, buildRowInputs_append, buildRowInputs_cons]
  refine List.mem_append_right _ (List.mem_append_left _ ?_)
  rw [Option.mem_toList]
  exact hinput

theorem input_of_project (h : parseSheet sheet = .ok file) {before after : List (List Cell × Nat)}
    (hsplit : sheet.numbered = before ++ (cells, n) :: after)
    (hproject : isProjectRow cells = true) :
    (ParsedRow.mk n .project none (cells.map (·.text))).toInput env.number
      (categoryPast env items none before) ∈ inputsOf env items file :=
  inputs_split h hsplit (parsedRow_project n hproject) rfl

theorem input_of_unknown_header (h : parseSheet sheet = .ok file)
    (hmem : (cells, n) ∈ sheet.numbered) (hheader : isHeaderRow cells = true)
    (hopens : opensCategory env items cells = false) {name : String}
    (hname : textAt cells 1 = some name) : emptyRowInput n name ∈ inputsOf env items file := by
  obtain ⟨before, after, hsplit⟩ := List.append_of_mem hmem
  refine inputs_split h hsplit (parsedRow_header n hheader) ?_
  have hclosed : opensGroup env.unicode (validGroupsOf env.unicode items)
      ⟨n, .group, textAt cells 1, cells.map (·.text)⟩ = false := by
    rw [opensCategory, hheader, Bool.true_and] at hopens
    exact hopens
  rw [hname] at hclosed ⊢
  simp only [inputOf, hclosed, Bool.false_eq_true, if_false]
  rfl

theorem input_comes_from (h : parseSheet sheet = .ok file)
    (hinput : input ∈ inputsOf env items file) :
    ∃ cells, (cells, input.rowNumber) ∈ sheet.numbered ∧
      (isProjectRow cells = true ∨
        isHeaderRow cells = true ∧ opensCategory env items cells = false) := by
  obtain ⟨row, hrow, c, hc⟩ := mem_buildRowInputs env.unicode env.number
    (validGroupsOf env.unicode items) hinput
  rw [parseSheet_rows h] at hrow
  obtain ⟨⟨cells, n⟩, hmem, hparsed⟩ := List.mem_filterMap.mp hrow
  have hn : input.rowNumber = n := by
    rw [inputOf_rowNumber env.unicode env.number _ hc, parsedRow_rowNumber hparsed]
  refine ⟨cells, by rw [hn]; exact hmem, ?_⟩
  unfold parsedRow at hparsed
  by_cases hempty : isEmptyRow cells = true
  · simp only [if_pos hempty] at hparsed
    cases hparsed
  by_cases hsub : isSubtotalRow cells = true
  · simp only [if_neg hempty, if_pos hsub] at hparsed
    cases hparsed
    cases hc
  by_cases hgroup : isGroupRow cells = true
  · simp only [if_neg hempty, if_neg hsub, if_pos hgroup] at hparsed
    cases hparsed
    right
    have hclosed : opensGroup env.unicode (validGroupsOf env.unicode items)
        ⟨n, .group, textAt cells 1, cells.map (·.text)⟩ = false := by
      cases hopens : opensGroup env.unicode (validGroupsOf env.unicode items)
          ⟨n, .group, textAt cells 1, cells.map (·.text)⟩ with
      | false => rfl
      | true =>
          simp only [inputOf, hopens, if_true] at hc
          cases hc
    -- A group without a name opens the group without a category.
    have hsome : (textAt cells 1).isSome = true := by
      cases hname : textAt cells 1 with
      | some name => rfl
      | none =>
          rw [hname] at hclosed
          cases hclosed
    have hheader : isHeaderRow cells = true := by
      rw [isHeaderRow, hgroup, hsome]
      rfl
    refine ⟨hheader, ?_⟩
    rw [opensCategory, hheader, Bool.true_and]
    exact hclosed
  · left
    simp [isProjectRow, hempty, hsub, hgroup]

theorem row_classified (h : parseSheet sheet = .ok file) (hmem : (cells, n) ∈ sheet.numbered)
    (hempty : isEmptyRow cells = false) :
    ∃ row, (∀ r, r ∈ file.rows ∧ r.rowNumber = n ↔ r = row) ∧
      row.cells = cells.map (·.text) ∧ row.kind ≠ .empty ∧
      (isSubtotalRow cells = true → row.kind = .subtotal) ∧
      (isHeaderRow cells = true → row.kind = .group) ∧
      (isProjectRow cells = true → row.kind = .project) := by
  obtain ⟨row, hrow, hkind⟩ := parsedRow_isSome n hempty
  have hfile : row ∈ file.rows := by
    rw [parseSheet_rows h]
    exact List.mem_filterMap.mpr ⟨(cells, n), hmem, hrow⟩
  have hn : row.rowNumber = n := parsedRow_rowNumber hrow
  refine ⟨row, ?_, parsedRow_cells hrow, hkind, ?_, ?_, ?_⟩
  · intro r
    rw [← hn]
    exact only_of_pairwise (file_pairwise h) hfile r
  · intro hsub
    rw [parsedRow_subtotal n hempty hsub] at hrow
    cases hrow
    rfl
  · intro hheader
    rw [parsedRow_header n hheader] at hrow
    cases hrow
    rfl
  · intro hproject
    rw [parsedRow_project n hproject] at hrow
    cases hrow
    rfl

end Sheet

def blankCell : Cell := ⟨none, false⟩

def textCell (text : String) : Cell := ⟨some text, false⟩

def templateSheet (rows : List (List Cell)) : Worksheet where
  titleMerge := some titleMerge
  title := textCell "利润分析" :: List.replicate 27 blankCell
  header := templateHeaders.map textCell
  rows

def headerRow (name : String) : List Cell :=
  blankCell :: textCell name :: List.replicate 26 blankCell

def dataRow (serial name year : String) : List Cell :=
  [textCell serial, textCell name, blankCell, textCell year] ++ List.replicate 24 blankCell

def drillEnvironment : ImportEnvironment where
  unicode := ⟨id, id⟩
  now := 0
  number := String.toNat?

/-- A dictionary with one category. -/
def drillItems : Table FinanceDictItem :=
  ⟨[(1, ⟨.bizCategory, "市政", none, 0, .active⟩)], by simp⟩

/-- A known header, an unknown one and a project row. -/
def drillSheet : Worksheet :=
  templateSheet [headerRow "市政", headerRow "绿化", dataRow "1" "一号桥" "2024"]

theorem matchesTemplateSignature_template (rows : List (List Cell)) :
    matchesTemplateSignature ((templateSheet rows).header.map (·.text))
      (templateSheet rows).titleMerge = true := by
  have hlength : templateHeaders.length = columnCount := rfl
  simp [matchesTemplateSignature, templateSheet, textCell, hlength, titleMerge,
    List.take_of_length_le]

theorem drillSheet_isOk : ∃ file, parseSheet drillSheet = .ok file :=
  parseSheet_isOk (matchesTemplateSignature_template _) (by decide +kernel)

def isNamelessRow (cells : List Cell) : Bool := isProjectRow cells && isBlank (textAt cells 1)

/-- The headers that are read as data. -/
def isUnknownHeader (env : ImportEnvironment) (items : Table FinanceDictItem)
    (cells : List Cell) : Bool :=
  isHeaderRow cells && !opensCategory env items cells

theorem length_buildRowInputs (u : Unicode) (number : String → Option Nat)
    (validGroups : List String) (category : Option String) (rows : List ParsedRow) :
    (buildRowInputs u number validGroups category rows).length =
      rows.countP fun row => row.kind == .project ||
        (row.kind == .group && !opensGroup u validGroups row) := by
  induction rows generalizing category with
  | nil => rfl
  | cons row rows ih =>
      rw [buildRowInputs_cons, List.length_append, ih, List.countP_cons, Nat.add_comm]
      congr 1
      cases hkind : row.kind with
      | group => cases hopens : opensGroup u validGroups row <;> simp [inputOf, hkind, hopens]
      | subtotal => simp [inputOf, hkind]
      | project => simp [inputOf, hkind]
      | empty => simp [inputOf, hkind]

theorem becomes_input (env : ImportEnvironment) (items : Table FinanceDictItem)
    (cells : List Cell) (n : Nat) :
    (((parsedRow cells n).map fun row => row.kind == .project ||
        (row.kind == .group &&
          !opensGroup env.unicode (validGroupsOf env.unicode items) row)).getD false) =
      (isProjectRow cells || isUnknownHeader env items cells) := by
  unfold parsedRow
  by_cases hempty : isEmptyRow cells = true
  · have hheader : isHeaderRow cells = false := by
      cases h : isHeaderRow cells with
      | false => rfl
      | true => rw [isEmptyRow_header h] at hempty; cases hempty
    simp [hempty, isProjectRow, isUnknownHeader, hheader]
  by_cases hsub : isSubtotalRow cells = true
  · have hheader : isHeaderRow cells = false := by
      cases h : isHeaderRow cells with
      | false => rfl
      | true =>
          have hgroup := (Bool.and_eq_true_iff.mp h).1
          rw [isSubtotalRow_group hgroup] at hsub
          cases hsub
    simp [hempty, hsub, isProjectRow, isUnknownHeader, hheader]
  by_cases hgroup : isGroupRow cells = true
  · rw [if_neg hempty, if_neg hsub, if_pos hgroup]
    have hproject : isProjectRow cells = false := by simp [isProjectRow, hgroup]
    rw [hproject, isUnknownHeader, opensCategory, isHeaderRow, hgroup]
    cases hname : textAt cells 1 with
    | none => rfl
    | some name => simp [opensGroup, groupOf, headerCategory, hname]
  · simp [hempty, hsub, hgroup, isProjectRow, isUnknownHeader, isHeaderRow]

theorem countP_split {α : Type} (l : List α) (p q : α → Bool) :
    l.countP p = l.countP (fun x => p x && !q x) + l.countP (fun x => p x && q x) := by
  induction l with
  | nil => rfl
  | cons x l ih =>
      rw [List.countP_cons, List.countP_cons, List.countP_cons, ih]
      cases p x <;> cases q x <;> simp <;> omega

theorem countP_or {α : Type} (l : List α) (p q : α → Bool) (h : ∀ x, p x = true → q x = false) :
    (l.countP fun x => p x || q x) = l.countP p + l.countP q := by
  induction l with
  | nil => rfl
  | cons x l ih =>
      rw [List.countP_cons, List.countP_cons, List.countP_cons, ih]
      have hx := h x
      cases hp : p x <;> cases hq : q x <;> simp [hp, hq] at hx ⊢ <;> omega

theorem countP_numbered (sheet : Worksheet) (p : List Cell → Bool) :
    (sheet.numbered.countP fun r => p r.1) = sheet.rows.countP p := by
  have hmap : sheet.numbered.map Prod.fst = sheet.rows := List.zipIdx_map_fst 3 sheet.rows
  conv => rhs; rw [← hmap]
  rw [List.countP_map]
  rfl

theorem length_inputsOf (env : ImportEnvironment) (items : Table FinanceDictItem)
    {sheet : Worksheet} {file : ParsedFile} (h : parseSheet sheet = .ok file) :
    (inputsOf env items file).length =
      sheet.rows.countP isNamedRow + sheet.rows.countP isNamelessRow +
        sheet.rows.countP (isUnknownHeader env items) := by
  rw [inputsOf, length_buildRowInputs, parseSheet_rows h, List.countP_filterMap]
  have hrow : ∀ r ∈ sheet.numbered,
      (((parsedRow r.1 r.2).map fun row => row.kind == .project ||
        (row.kind == .group &&
          !opensGroup env.unicode (validGroupsOf env.unicode items) row)).getD false) = true ↔
      (isProjectRow r.1 || isUnknownHeader env items r.1) = true := by
    intro r _
    rw [becomes_input]
  rw [List.countP_congr hrow,
    countP_numbered sheet fun cells => isProjectRow cells || isUnknownHeader env items cells,
    countP_or _ _ _ ?_, countP_split sheet.rows isProjectRow fun cells => isBlank (textAt cells 1)]
  · rfl
  · intro cells hproject
    have hgroup : isGroupRow cells = false := by
      simp [isProjectRow] at hproject
      exact hproject.2
    simp [isUnknownHeader, isHeaderRow, hgroup]

theorem length_matchInputs (u : Unicode) (projects : List (Nat × Project))
    (inputs : List ProjectRowInput) : (matchInputs u projects inputs).length = inputs.length := by
  have hfold : ∀ state : MatchState,
      (inputs.foldl (matchRow u projects) state).matched.length =
        state.matched.length + inputs.length := by
    induction inputs with
    | nil => intro state; rfl
    | cons input inputs ih =>
        intro state
        rw [List.foldl_cons, ih, List.length_cons]
        have hone : (matchRow u projects state input).matched.length =
            state.matched.length + 1 := List.length_append
        omega
  have hall := hfold ⟨[], [], []⟩
  rw [List.length_nil, Nat.zero_add] at hall
  exact hall

/-- The limit holds of the inputs, and of the rows that are previewed, where it holds of the
named rows, the nameless rows and the unknown headers together. -/
theorem inputs_within_limit (env : ImportEnvironment) (items : Table FinanceDictItem)
    (sheet : Worksheet) (file : ParsedFile) (h : parseSheet sheet = .ok file) :
    ((inputsOf env items file).length ≤ importMaxRows ∧
      ∀ projects, (matchInputs env.unicode projects (inputsOf env items file)).length ≤
        importMaxRows) ↔
      sheet.rows.countP isNamedRow + sheet.rows.countP isNamelessRow +
        sheet.rows.countP (isUnknownHeader env items) ≤ importMaxRows := by
  rw [← length_inputsOf env items h]
  constructor
  · intro hlimit
    exact hlimit.1
  · intro hlimit
    refine ⟨hlimit, fun projects => ?_⟩
    rw [length_matchInputs]
    exact hlimit

theorem inputs_within_limit_drill :
    ∃ file, parseSheet drillSheet = .ok file ∧
      (inputsOf drillEnvironment drillItems file).length ≤ importMaxRows := by
  obtain ⟨file, h⟩ := drillSheet_isOk
  have hcount : drillSheet.rows.countP isNamedRow + drillSheet.rows.countP isNamelessRow +
      drillSheet.rows.countP (isUnknownHeader drillEnvironment drillItems) ≤ importMaxRows := by
    decide +kernel
  exact ⟨file, h, ((inputs_within_limit drillEnvironment drillItems drillSheet file h).mpr
    hcount).1⟩

/-- A sheet of headers of no category, one row more than the limit. -/
def unknownHeaders : Worksheet :=
  templateSheet (List.replicate (importMaxRows + 1) (headerRow "绿化"))

theorem inputs_beyond_limit :
    ∃ file, parseSheet unknownHeaders = .ok file ∧
      (inputsOf drillEnvironment drillItems file).length = importMaxRows + 1 := by
  have hcount (p : List Cell → Bool) :
      unknownHeaders.rows.countP p = if p (headerRow "绿化") then importMaxRows + 1 else 0 :=
    List.countP_replicate
  have hnamed : isNamedRow (headerRow "绿化") = false := by decide +kernel
  have hnameless : isNamelessRow (headerRow "绿化") = false := by decide +kernel
  have hunknown : isUnknownHeader drillEnvironment drillItems (headerRow "绿化") = true := by
    decide +kernel
  obtain ⟨file, h⟩ : ∃ file, parseSheet unknownHeaders = .ok file :=
    parseSheet_isOk (matchesTemplateSignature_template _) (by rw [hcount, hnamed]; simp)
  refine ⟨file, h, ?_⟩
  rw [length_inputsOf drillEnvironment drillItems h, hcount, hcount, hcount, hnamed, hnameless,
    hunknown]
  simp

end ImportRows

end Wbme.Fin

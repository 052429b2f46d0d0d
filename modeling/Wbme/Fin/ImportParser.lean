import Wbme.Fin.ImportPreview
import Wbme.Fin.CellSave

/-! # Parsing a worksheet

The rows of an uploaded worksheet from the third on: blank rows are skipped, the others are
subtotals, groups or project rows. Project rows with a name are counted against the limit and
checked cell by cell.
-/

namespace Wbme.Fin

structure Cell where
  text : Option String
  formula : Bool

/-- The one worksheet of a file: the merge of the title, the title and header rows, and the rows
behind them. -/
structure Worksheet where
  titleMerge : Option String
  title : List Cell
  header : List Cell
  rows : List (List Cell)

inductive ParseFailure where
  | sheetInvalid (reason : String)
  | rowLimit

def importMaxRows : Nat := 10000

def columnCount : Nat := 28

def titleMerge : String := "A1:AB1"

def subtotalMarker : String := "小计"

def templateHeaders : List String :=
  ["序号", "项目名称", "资料齐全度", "年度", "地区", "项目进度", "甲方", "总包方", "管理费", "分包方",
    "合同开始日期", "合同完工日期", "合同金额（元）", "主合同付款节点", "暂定审定金额", "开票金额（元）",
    "已收回款（元）", "累计开票（元）", "累计收款（元）", "备注", "剩余未开票（元）", "剩余未收款（元）",
    "分包结算（元）", "已付分包款（元）", "零星费用", "累计分包付款（元）", "暂定保通权益", "毛利率"]

/-- Columns that are computed and may hold formulas. -/
def autoCalcColumns : List Nat := [18, 19, 21, 22, 26, 27, 28]

def multiValueColumns : List Nat :=
  [Column.completeness, .subcontractors, .invoices, .receipts, .subcontractPayments].map
    Column.number

def amountColumns : List Nat :=
  [Column.contractAmount, .tentativeAudited, .invoices, .receipts, .settlement,
    .subcontractPayments, .miscExpense].map Column.number

def dateColumns : List Nat := [Column.contractStart, .contractEnd].map Column.number

def textLimitByColumn (column : Nat) : Option Nat :=
  if column = Column.name.number then some 200
  else if column = Column.partyA.number then some 200
  else if column = Column.generalContractor.number then some 200
  else if column = Column.managementFee.number then some 200
  else if column = Column.paymentNode.number then some 500
  else if column = Column.remark.number then some 1000
  else none

def subcontractorsMaxItems : Nat := 50

def shortTextMaxLength : Nat := 200

def headerName (column : Nat) : String :=
  if 2 ≤ column ∧ column ≤ 17 ∨ column = 20 ∨ 23 ≤ column ∧ column ≤ 25 then
    templateHeaders.getD (column - 1) ""
  else s!"第{column}列"

/-- `replace(/\s+/g, '')` -/
def normalizeHeaderText (text : String) : String :=
  String.ofList (text.toList.filter fun c => !isSpace c)

def matchesTemplateSignature (header : List (Option String)) (merge : Option String) : Bool :=
  columnCount ≤ header.length &&
    ((header.take columnCount).map fun text => normalizeHeaderText (text.getD "")) ==
      templateHeaders.map normalizeHeaderText &&
    merge == some titleMerge

/-! ## Checks of a row -/

/-- As many characters as fit into a number of UTF-16 units. -/
def takeUnits : Nat → List Char → List Char
  | _, [] => []
  | units, c :: cs =>
      let size := if c.toNat < 0x10000 then 1 else 2
      if size ≤ units then c :: takeUnits (units - size) cs else []

def excerpt (text : String) : String := String.ofList (takeUnits 12 text.toList)

def numbered (cells : List Cell) : List (Nat × Cell) :=
  (List.range columnCount).map fun i => (i + 1, (cells[i]?).getD ⟨none, false⟩)

def validateTemplateRowFormulas (rowNumber : Nat) (cells : List Cell) : List RowError :=
  ((numbered cells).filter fun p => p.2.formula).map fun p =>
    ⟨rowNumber, headerName p.1, "标题或表头不允许包含公式"⟩

def forbiddenFormula (column : Nat) (cell : Cell) : Bool :=
  cell.formula && !autoCalcColumns.contains column

def validateRowFormulas (rowNumber : Nat) (cells : List Cell) : List RowError :=
  ((numbered cells).filter fun p => forbiddenFormula p.1 p.2).map fun p =>
    ⟨rowNumber, headerName p.1, "手工字段不允许包含公式"⟩

def partsOf (column : Nat) (text : String) : List String :=
  if multiValueColumns.contains column then splitMultiValue text else [text]

def firstRepeated : List String → List String → Option String
  | _, [] => none
  | seen, part :: parts =>
      let norm := trim (String.ofList (collapse false part.toList))
      if seen.contains norm then some part else firstRepeated (norm :: seen) parts

/-- `^(?:1000|[1-9]\d{3})$` -/
def isFourDigitYear (text : String) : Bool :=
  match text.toList with
  | [a, b, c, d] => [a, b, c, d].all Char.isDigit && a != '0'
  | _ => false

/-- The subcontractors up to the first one that repeats another. -/
def upToRepeated : List String → List String → List String
  | _, [] => []
  | seen, part :: parts =>
      let norm := trim (String.ofList (collapse false part.toList))
      if seen.contains norm then [part] else part :: upToRepeated (norm :: seen) parts

def cellReasons (column : Nat) (text : String) : List String :=
  ((textLimitByColumn column).toList.filter fun limit => limit < textLength text).map
      (fun limit => s!"“{excerpt text}…”超过 {limit} 个字符上限") ++
    (if amountColumns.contains column then
        ((partsOf column text).filter fun part => !isNonNegativeAmount part).map
          fun part => s!"金额“{part}”不是非负十进制金额（最多两位小数）"
      else []) ++
    (if dateColumns.contains column ∧ (dateParts text).isNone then
        [s!"日期“{text}”不是 YYYY-MM-DD 格式"] else []) ++
    (if column = Column.year.number ∧ isFourDigitYear text = false then
        [s!"年度“{text}”不是 1000～9999 的四位公历年"] else []) ++
    (if column = Column.subcontractors.number then
        (if subcontractorsMaxItems < (splitMultiValue text).length then
            [s!"分包方超过 {subcontractorsMaxItems} 项上限"] else []) ++
          ((upToRepeated [] (splitMultiValue text)).filter fun part =>
              shortTextMaxLength < textLength part).map
            (fun part => s!"分包方“{excerpt part}…”超过 {shortTextMaxLength} 个字符上限") ++
          (firstRepeated [] (splitMultiValue text)).toList.map
            (fun part => s!"分包方“{part}”与同行其他项重复")
      else []) ++
    (if column = Column.completeness.number then
        (firstRepeated [] (splitMultiValue text)).toList.map
          fun part => s!"资料齐全度“{part}”与同行其他项重复"
      else [])

def validateCell (rowNumber column : Nat) (cell : Cell) : List RowError :=
  if forbiddenFormula column cell then [⟨rowNumber, headerName column, "手工字段不允许包含公式"⟩]
  else
    match cell.text with
    | none => []
    | some "" => []
    | some text => (cellReasons column text).map fun reason => ⟨rowNumber, headerName column, reason⟩

def validateProjectRow (rowNumber : Nat) (cells : List Cell) : List RowError :=
  (numbered cells).flatMap fun p => validateCell rowNumber p.1 p.2

/-! ## The rows -/

/-- The text in a column, counted from zero. -/
def textAt (cells : List Cell) (index : Nat) : Option String :=
  (cells[index]?).bind (·.text)

def isBlank (text : Option String) : Bool := text == none || text == some ""

def isEmptyRow (cells : List Cell) : Bool := cells.all fun cell => isBlank cell.text

def isSubtotalRow (cells : List Cell) : Bool :=
  normalizeHeaderText ((textAt cells 0).getD "") == subtotalMarker

/-- Column A is missing, column B is not the empty text, and columns C and D are blank. -/
def isGroupRow (cells : List Cell) : Bool :=
  textAt cells 0 == none && textAt cells 1 != some "" && isBlank (textAt cells 2) &&
    isBlank (textAt cells 3)

structure ParseState where
  rows : List ParsedRow
  errors : List RowError
  projectCount : Nat

def parseRow (state : ParseState) (rowNumber : Nat) (cells : List Cell) :
    Except ParseFailure ParseState :=
  let texts := cells.map (·.text)
  if isEmptyRow cells then
    .ok { state with errors := state.errors ++ validateRowFormulas rowNumber cells }
  else if isSubtotalRow cells then
    .ok { state with rows := state.rows ++ [⟨rowNumber, .subtotal, none, texts⟩] }
  else if isGroupRow cells then
    .ok
      { state with
        errors := state.errors ++ validateRowFormulas rowNumber cells
        rows := state.rows ++ [⟨rowNumber, .group, textAt cells 1, texts⟩] }
  else if isBlank (textAt cells 1) then
    .ok
      { state with
        errors := state.errors ++ [⟨rowNumber, "项目名称", "项目数据行缺少项目名称"⟩]
        rows := state.rows ++ [⟨rowNumber, .project, none, texts⟩] }
  else if importMaxRows < state.projectCount + 1 then .error .rowLimit
  else
    .ok
      { rows := state.rows ++ [⟨rowNumber, .project, none, texts⟩]
        errors := state.errors ++ validateProjectRow rowNumber cells
        projectCount := state.projectCount + 1 }

def parseRows : Nat → List (List Cell) → ParseState → Except ParseFailure ParseState
  | _, [], state => .ok state
  | rowNumber, cells :: rows, state =>
      match parseRow state rowNumber cells with
      | .error e => .error e
      | .ok next => parseRows (rowNumber + 1) rows next

/-- The parse of a worksheet whose signature has been checked. -/
def parseSheetRows (sheet : Worksheet) : Except ParseFailure ParseState :=
  parseRows 3 sheet.rows
    { rows := []
      errors := validateTemplateRowFormulas 1 sheet.title ++
        validateTemplateRowFormulas 2 sheet.header
      projectCount := 0 }

/-! ## What a parse yields -/

/-- What the file says of a row: nothing where it is blank. -/
def parsedRow (cells : List Cell) (rowNumber : Nat) : Option ParsedRow :=
  if isEmptyRow cells then none
  else if isSubtotalRow cells then some ⟨rowNumber, .subtotal, none, cells.map (·.text)⟩
  else if isGroupRow cells then some ⟨rowNumber, .group, textAt cells 1, cells.map (·.text)⟩
  else some ⟨rowNumber, .project, none, cells.map (·.text)⟩

/-- A project row: neither blank nor a subtotal nor a group. -/
def isProjectRow (cells : List Cell) : Bool :=
  !isEmptyRow cells && !isSubtotalRow cells && !isGroupRow cells

def isNamedRow (cells : List Cell) : Bool := isProjectRow cells && !isBlank (textAt cells 1)

variable {sheet : Worksheet} {cells : List Cell} {state : ParseState}

variable {n : Nat}

theorem parsedRow_rowNumber {row : ParsedRow} (h : parsedRow cells n = some row) :
    row.rowNumber = n := by
  unfold parsedRow at h
  split at h
  · cases h
  · split at h
    · cases h
      rfl
    · split at h <;> cases h <;> rfl

theorem parsedRow_cells {row : ParsedRow} (h : parsedRow cells n = some row) :
    row.cells = cells.map (·.text) := by
  unfold parsedRow at h
  split at h
  · cases h
  · split at h
    · cases h
      rfl
    · split at h <;> cases h <;> rfl

theorem parsedRow_project (n : Nat) (h : isProjectRow cells = true) :
    parsedRow cells n = some ⟨n, .project, none, cells.map (·.text)⟩ := by
  simp [isProjectRow] at h
  simp [parsedRow, h]

theorem parseRow_ok {state next : ParseState} (h : parseRow state n cells = .ok next) :
    next.rows = state.rows ++ (parsedRow cells n).toList ∧
      next.projectCount = state.projectCount + (if isNamedRow cells then 1 else 0) := by
  unfold parseRow at h
  by_cases hempty : isEmptyRow cells = true
  · rw [if_pos hempty] at h
    cases h
    simp [parsedRow, isNamedRow, isProjectRow, hempty]
  rw [if_neg hempty] at h
  by_cases hsub : isSubtotalRow cells = true
  · rw [if_pos hsub] at h
    cases h
    simp [parsedRow, isNamedRow, isProjectRow, hempty, hsub]
  rw [if_neg hsub] at h
  by_cases hgroup : isGroupRow cells = true
  · rw [if_pos hgroup] at h
    cases h
    simp [parsedRow, isNamedRow, isProjectRow, hempty, hsub, hgroup]
  rw [if_neg hgroup] at h
  by_cases hname : isBlank (textAt cells 1) = true
  · rw [if_pos hname] at h
    cases h
    simp [parsedRow, isNamedRow, hempty, hsub, hgroup, hname]
  rw [if_neg hname] at h
  split at h
  · cases h
  · cases h
    simp [parsedRow, isNamedRow, isProjectRow, hempty, hsub, hgroup, hname]

theorem parseRow_isOk (state : ParseState) (cells : List Cell) (n : Nat)
    (h : state.projectCount + (if isNamedRow cells then 1 else 0) ≤ importMaxRows) :
    ∃ next, parseRow state n cells = .ok next := by
  unfold parseRow
  by_cases hempty : isEmptyRow cells = true
  · exact ⟨_, if_pos hempty⟩
  rw [if_neg hempty]
  by_cases hsub : isSubtotalRow cells = true
  · exact ⟨_, if_pos hsub⟩
  rw [if_neg hsub]
  by_cases hgroup : isGroupRow cells = true
  · exact ⟨_, if_pos hgroup⟩
  rw [if_neg hgroup]
  by_cases hname : isBlank (textAt cells 1) = true
  · exact ⟨_, if_pos hname⟩
  rw [if_neg hname]
  have hnamed : isNamedRow cells = true := by
    simp [isNamedRow, isProjectRow, hempty, hsub, hgroup, hname]
  rw [if_pos hnamed] at h
  exact ⟨_, if_neg (by omega)⟩

theorem parseRows_ok {rows : List (List Cell)} {n : Nat} {state final : ParseState}
    (h : parseRows n rows state = .ok final) :
    final.rows = state.rows ++ (rows.zipIdx n).filterMap (fun p => parsedRow p.1 p.2) ∧
      final.projectCount = state.projectCount + rows.countP isNamedRow := by
  induction rows generalizing n state with
  | nil =>
      cases h
      simp
  | cons cells rows ih =>
      unfold parseRows at h
      cases hrow : parseRow state n cells with
      | error e =>
          rw [hrow] at h
          cases h
      | ok next =>
          rw [hrow] at h
          obtain ⟨hrows, hcount⟩ := ih h
          obtain ⟨hnext, hone⟩ := parseRow_ok hrow
          constructor
          · rw [hrows, hnext, List.zipIdx_cons]
            cases hp : parsedRow cells n <;> simp [hp]
          · rw [hcount, hone, List.countP_cons]
            omega

theorem parseRows_isOk {rows : List (List Cell)} (n : Nat) {state : ParseState}
    (h : state.projectCount + rows.countP isNamedRow ≤ importMaxRows) :
    ∃ final, parseRows n rows state = .ok final := by
  induction rows generalizing n state with
  | nil => exact ⟨state, rfl⟩
  | cons cells rows ih =>
      rw [List.countP_cons] at h
      obtain ⟨next, hnext⟩ := parseRow_isOk state cells n (by omega)
      obtain ⟨final, hfinal⟩ := @ih (n + 1) next (by
        rw [(parseRow_ok hnext).2]
        omega)
      refine ⟨final, ?_⟩
      unfold parseRows
      rw [hnext]
      exact hfinal

def Worksheet.numbered (sheet : Worksheet) : List (List Cell × Nat) := sheet.rows.zipIdx 3

theorem parseSheetRows_rows (h : parseSheetRows sheet = .ok state) :
    state.rows = sheet.numbered.filterMap fun p => parsedRow p.1 p.2 := by
  have hrows := (parseRows_ok h).1
  simpa [Worksheet.numbered] using hrows

theorem numbered_pairwise (sheet : Worksheet) : sheet.numbered.Pairwise fun a b => a.2 < b.2 := by
  have hmap : (sheet.numbered.map Prod.snd).Pairwise (· < ·) := by
    rw [Worksheet.numbered, List.zipIdx_map_snd]
    exact List.pairwise_lt_range'
  exact List.pairwise_map.mp hmap

theorem rowNumbers_pairwise (h : parseSheetRows sheet = .ok state) :
    state.rows.Pairwise fun a b => a.rowNumber < b.rowNumber := by
  rw [parseSheetRows_rows h]
  refine (numbered_pairwise sheet).filterMap _ fun p q hlt row hrow other hother => ?_
  rw [parsedRow_rowNumber hrow, parsedRow_rowNumber hother]
  exact hlt

theorem rowNumbers_nodup (h : parseSheetRows sheet = .ok state) :
    (state.rows.map (·.rowNumber)).Nodup := by
  have hlt : (state.rows.map (·.rowNumber)).Pairwise (· < ·) :=
    List.pairwise_map.mpr (rowNumbers_pairwise h)
  exact hlt.imp fun hab => Nat.ne_of_lt hab

def parseSheet (sheet : Worksheet) : Except ParseFailure ParsedFile :=
  if matchesTemplateSignature (sheet.header.map (·.text)) sheet.titleMerge then
    match h : parseSheetRows sheet with
    | .error e => .error e
    | .ok state => .ok ⟨state.rows, state.errors, rowNumbers_nodup h⟩
  else .error (.sheetInvalid "工作表结构或表头与利润分析 V2 模板不匹配")

theorem parseSheet_rows {file : ParsedFile} (h : parseSheet sheet = .ok file) :
    file.rows = sheet.numbered.filterMap fun p => parsedRow p.1 p.2 := by
  unfold parseSheet at h
  split at h
  · split at h
    · cases h
    · rename_i state hstate
      cases h
      exact parseSheetRows_rows hstate
  · cases h

theorem parseSheet_isOk
    (hsign : matchesTemplateSignature (sheet.header.map (·.text)) sheet.titleMerge = true)
    (hcount : sheet.rows.countP isNamedRow ≤ importMaxRows) :
    ∃ file, parseSheet sheet = .ok file := by
  obtain ⟨state, hstate⟩ : ∃ state, parseSheetRows sheet = .ok state :=
    parseRows_isOk 3 (by simpa using hcount)
  unfold parseSheet
  rw [if_pos hsign]
  split
  · rename_i e he
    rw [hstate] at he
    cases he
  · exact ⟨_, rfl⟩

end Wbme.Fin

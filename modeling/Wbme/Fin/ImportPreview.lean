import Wbme.Fin.Projects

/-! # Matching an import file

The rows of a parsed worksheet become the inputs of projects, each under the category of its
group, and every input is matched against the stored projects: it is new, a choice between
overwriting and skipping, or a conflict.
-/

namespace Wbme.Fin

open Lib

/-! ## Parsed files -/

inductive ParsedRowKind where
  | group
  | subtotal
  | project
  | empty
deriving DecidableEq

structure ParsedRow where
  rowNumber : Nat
  kind : ParsedRowKind
  groupName : Option String
  cells : List (Option String)

structure RowError where
  rowNumber : Nat
  field : String
  reason : String
deriving DecidableEq

/-- What the parser makes of a worksheet: every row once. -/
structure ParsedFile where
  rows : List ParsedRow
  errors : List RowError
  nodup : (rows.map (·.rowNumber)).Nodup

/-- The columns of the template that are imported, counted from one. -/
inductive Column where
  | name
  | completeness
  | year
  | region
  | progress
  | partyA
  | generalContractor
  | managementFee
  | subcontractors
  | contractStart
  | contractEnd
  | contractAmount
  | paymentNode
  | tentativeAudited
  | invoices
  | receipts
  | remark
  | settlement
  | subcontractPayments
  | miscExpense

def Column.number : Column → Nat
  | .name => 2
  | .completeness => 3
  | .year => 4
  | .region => 5
  | .progress => 6
  | .partyA => 7
  | .generalContractor => 8
  | .managementFee => 9
  | .subcontractors => 10
  | .contractStart => 11
  | .contractEnd => 12
  | .contractAmount => 13
  | .paymentNode => 14
  | .tentativeAudited => 15
  | .invoices => 16
  | .receipts => 17
  | .remark => 20
  | .settlement => 23
  | .subcontractPayments => 24
  | .miscExpense => 25

/-- The text of a cell, unless it is empty. -/
def ParsedRow.cell (row : ParsedRow) (column : Column) : Option String :=
  (row.cells[column.number - 1]?).join

/-! ## Inputs -/

inductive RowYear where
  | missing
  | number (n : Nat)
  | other
deriving DecidableEq

structure ProjectRowInput where
  rowNumber : Nat
  name : String
  year : RowYear
  groupName : Option String
  completenessDocs : List String
  regionName : Option String
  progressName : Option String
  partyA : Option String
  generalContractor : Option String
  managementFee : Option String
  subcontractors : List String
  contractStartDate : Option String
  contractEndDate : Option String
  contractAmount : Option String
  paymentNode : Option String
  tentativeAuditedAmount : Option String
  invoices : List String
  receipts : List String
  remark : Option String
  settlement : Option String
  subcontractPayments : List String
  miscExpense : Option String

def splitLines : List Char → List (List Char)
  | [] => [[]]
  | '\r' :: '\n' :: cs => [] :: splitLines cs
  | '\r' :: cs => [] :: splitLines cs
  | '\n' :: cs => [] :: splitLines cs
  | c :: cs =>
      match splitLines cs with
      | [] => [[c]]
      | line :: lines => (c :: line) :: lines

/-- The values of a cell, one a line; blank lines count for nothing. -/
def splitMultiValue (text : String) : List String :=
  ((splitLines text.toList).map fun line => String.ofList (trimChars line)).filter (· ≠ "")

/-- A trimmed cell, unless nothing is left of it. -/
def ParsedRow.text (row : ParsedRow) (column : Column) : Option String :=
  ((row.cell column).map trim).filter (· ≠ "")

def ParsedRow.values (row : ParsedRow) (column : Column) : List String :=
  splitMultiValue ((row.cell column).getD "")

/-- The year that a cell says; `number` is `Number` where it gives an integer from zero on. -/
def rowYear (number : String → Option Nat) : Option String → RowYear
  | none => .missing
  | some "" => .missing
  | some text =>
      match number text with
      | some n => .number n
      | none => .other

def emptyRowInput (rowNumber : Nat) (name : String) : ProjectRowInput :=
  { rowNumber, name, year := .missing, groupName := none, completenessDocs := []
    regionName := none, progressName := none, partyA := none, generalContractor := none
    managementFee := none, subcontractors := [], contractStartDate := none
    contractEndDate := none, contractAmount := none, paymentNode := none
    tentativeAuditedAmount := none, invoices := [], receipts := [], remark := none
    settlement := none, subcontractPayments := [], miscExpense := none }

def ParsedRow.toInput (number : String → Option Nat) (groupName : Option String)
    (row : ParsedRow) : ProjectRowInput :=
  { rowNumber := row.rowNumber
    name := trim ((row.cell .name).getD "")
    year := rowYear number (row.cell .year)
    groupName
    completenessDocs := row.values .completeness
    regionName := row.text .region
    progressName := row.text .progress
    partyA := row.text .partyA
    generalContractor := row.text .generalContractor
    managementFee := row.text .managementFee
    subcontractors := row.values .subcontractors
    contractStartDate := row.text .contractStart
    contractEndDate := row.text .contractEnd
    contractAmount := row.text .contractAmount
    paymentNode := row.text .paymentNode
    tentativeAuditedAmount := row.text .tentativeAudited
    invoices := row.values .invoices
    receipts := row.values .receipts
    remark := row.text .remark
    settlement := row.text .settlement
    subcontractPayments := row.values .subcontractPayments
    miscExpense := row.text .miscExpense }

def groupOf (row : ParsedRow) : Option String := row.groupName.filter (· ≠ unclassifiedGroupName)

/-- The inputs of the rows, with the category of the group they stand under. A group row whose
name is no category is read as a row with a name only. -/
def buildRowInputs (u : Unicode) (number : String → Option Nat) (validGroups : List String) :
    Option String → List ParsedRow → List ProjectRowInput
  | _, [] => []
  | context, row :: rows =>
      match row.kind with
      | .group =>
          if (groupOf row).all fun name => validGroups.contains (normalizeProjectName u name) then
            buildRowInputs u number validGroups (groupOf row) rows
          else
            emptyRowInput row.rowNumber (row.groupName.getD "") ::
              buildRowInputs u number validGroups context rows
      | .project =>
          row.toInput number context :: buildRowInputs u number validGroups context rows
      | .subtotal => buildRowInputs u number validGroups context rows
      | .empty => buildRowInputs u number validGroups context rows

structure ImportEnvironment extends FinEnvironment where
  /-- `Number` of a text, where it is an integer from zero on. -/
  number : String → Option Nat

/-- The normal forms of the categories in the dictionary, and of the group without one. -/
def validGroupsOf (u : Unicode) (items : Table FinanceDictItem) : List String :=
  (items.select fun _ item => item.dictType == .bizCategory).map
      (fun item => normalizeProjectName u item.2.name) ++
    [normalizeProjectName u unclassifiedGroupName]

def buildRowInputsWithGroups (env : ImportEnvironment) (file : ParsedFile) :
    FinTx (List ProjectRowInput) := do
  let items ← Txn.query fun v => v.financeDictItems
  pure (buildRowInputs env.unicode env.number (validGroupsOf env.unicode items) none file.rows)

/-! ## Matching -/

inductive MatchStatus where
  | new
  | choice
  | deleted
  | ambiguous
  | yearRequired
  | duplicate
deriving DecidableEq

structure MatchedRow where
  input : ProjectRowInput
  status : MatchStatus
  target : Option (Nat × Project)
  conflictReason : String

structure MatchState where
  matched : List MatchedRow
  seenProjectIds : List Nat
  seenKeys : List (String × RowYear)

def liveOf (candidates : List (Nat × Project)) : List (Nat × Project) :=
  candidates.filter fun p => p.2.isLive

def matchByKey (projects : List (Nat × Project)) (seenKeys : List (String × RowYear))
    (key : String × RowYear) : MatchStatus × Option (Nat × Project) × String :=
  let candidates := projects.filter fun p => (p.2.businessKey, RowYear.number p.2.year) == key
  match (liveOf candidates).head? with
  | some target => (.choice, some target, "")
  | none =>
      if !candidates.isEmpty then
        (.deleted, none, "项目已被删除，请进入已删除项目视图恢复或改名")
      else if seenKeys.contains key then
        (.duplicate, none, "同一文件中存在重复项目行（同一名称与年度）")
      else (.new, none, "")

/-- A row without a year goes by the name, which must be that of one project only. -/
def matchByName (projects : List (Nat × Project)) (businessKey : String) :
    MatchStatus × Option (Nat × Project) × String :=
  let candidates := projects.filter fun p => p.2.businessKey == businessKey
  let deleted := candidates.filter fun p => !p.2.isLive
  match liveOf candidates, deleted with
  | [target], [] => (.choice, some target, "")
  | [], [] => (.yearRequired, none, "新增项目必须提供年度")
  | _ :: _ :: _, _ => (.ambiguous, none, "存在多条同名跨年度记录，无法匹配，请补充年度")
  | _, _ => (.deleted, none, "项目已被删除或存在同名歧义，请补充年度后重试")

def matchRow (u : Unicode) (projects : List (Nat × Project)) (state : MatchState)
    (input : ProjectRowInput) : MatchState :=
  let businessKey := normalizeProjectName u input.name
  let key := (businessKey, input.year)
  let (status, target, reason) :=
    if input.year = .missing then matchByName projects businessKey
    else matchByKey projects state.seenKeys key
  let isSeen := target.any fun t => state.seenProjectIds.contains t.1
  { matched := state.matched ++
      [if isSeen then ⟨input, .duplicate, target, "同一文件中多行指向同一项目（重复覆盖）"⟩
        else ⟨input, status, target, reason⟩]
    seenProjectIds := state.seenProjectIds ++ (target.map (·.1)).toList
    seenKeys := if input.year = .missing then state.seenKeys else key :: state.seenKeys }

def matchInputs (u : Unicode) (projects : List (Nat × Project)) (inputs : List ProjectRowInput) :
    List MatchedRow := (inputs.foldl (matchRow u projects) ⟨[], [], []⟩).matched

/-- The projects that a file can point to. -/
def projectsNamed (u : Unicode) (inputs : List ProjectRowInput) (v : FinStore) :
    List (Nat × Project) :=
  let names := inputs.map fun input => normalizeProjectName u input.name
  let keyed := inputs.filter fun input => input.year ≠ .missing
  v.projects.select fun _ p =>
    (!keyed.isEmpty && keyed.all fun input =>
      normalizeProjectName u input.name == p.businessKey && input.year == .number p.year) ||
    names.contains p.businessKey

/-! ## The preview -/

structure PreviewRowItem where
  rowNumber : Nat
  name : String
  year : RowYear
  bizCategory : Option String
deriving DecidableEq

structure PendingChoiceItem extends PreviewRowItem where
  projectId : Nat
  dataRevision : Nat
  dataLossWarning : Bool

structure ConflictItem extends PreviewRowItem where
  status : MatchStatus
  reason : String

structure ErrorItem extends PreviewRowItem where
  fields : List RowError

structure ImportPreviewResult where
  created : List PreviewRowItem
  pendingChoice : List PendingChoiceItem
  conflicts : List ConflictItem
  errors : List ErrorItem

def ProjectRowInput.preview (input : ProjectRowInput) : PreviewRowItem :=
  ⟨input.rowNumber, input.name, input.year, input.groupName⟩

/-- A row in error goes to the errors; a row in conflict goes to the conflicts, and to the
errors besides. -/
def previewRow (rowErrors : List RowError) (lossyProjectIds : List Nat)
    (result : ImportPreviewResult) (item : MatchedRow) : ImportPreviewResult :=
  let preview := item.input.preview
  let errorsHere := rowErrors.filter fun e => e.rowNumber == item.input.rowNumber
  let error : ErrorItem := { toPreviewRowItem := preview, fields := errorsHere }
  match item.status with
  | .new =>
      if !errorsHere.isEmpty then { result with errors := result.errors ++ [error] }
      else { result with created := result.created ++ [preview] }
  | .choice =>
      if !errorsHere.isEmpty then { result with errors := result.errors ++ [error] }
      else
        match item.target with
        | none => result
        | some (projectId, project) =>
            { result with
              pendingChoice := result.pendingChoice ++
                [{ toPreviewRowItem := preview, projectId, dataRevision := project.dataRevision
                   dataLossWarning := lossyProjectIds.contains projectId }] }
  | status =>
      { result with
        conflicts := result.conflicts ++
          [{ toPreviewRowItem := preview, status, reason := item.conflictReason }]
        errors := if errorsHere.isEmpty then result.errors else result.errors ++ [error] }

def buildPreview (matched : List MatchedRow) (rowErrors : List RowError)
    (lossyProjectIds : List Nat) : ImportPreviewResult :=
  matched.foldl (previewRow rowErrors lossyProjectIds) ⟨[], [], [], []⟩

/-- A file without data rows has its errors only. -/
def previewErrors (rowErrors : List RowError) : ImportPreviewResult :=
  ⟨[], [], [], rowErrors.map fun e =>
    { rowNumber := e.rowNumber, name := "", year := .missing, bizCategory := none, fields := [e] }⟩

/-- The projects among some whose amounts of a kind have dates or remarks. -/
def lossyOf (v : FinStore) (kind : DetailKind) (ids : List Nat) : List Nat :=
  ((v.details kind).select fun _ d =>
    ids.contains d.projectId && (d.occurredDate.isSome || d.remark.isSome)).map (·.2.projectId)

/-- The projects that the rows offer to overwrite. -/
def choiceTargets (matched : List MatchedRow) : List Nat :=
  (matched.filter fun m => m.status == .choice).filterMap fun m => m.target.map (·.1)

def matchRows (env : ImportEnvironment) (file : ParsedFile) : FinTx ImportPreviewResult := do
  let inputs ← buildRowInputsWithGroups env file
  if inputs.isEmpty then pure (previewErrors file.errors)
  else do
    let projects ← Txn.query (projectsNamed env.unicode inputs)
    let matched := matchInputs env.unicode projects inputs
    let ids := choiceTargets matched
    let invoices ← Txn.query fun v => lossyOf v .invoice ids
    let receipts ← Txn.query fun v => lossyOf v .receipt ids
    let payments ← Txn.query fun v => lossyOf v .subcontractPayment ids
    pure (buildPreview matched file.errors (invoices ++ receipts ++ payments))

end Wbme.Fin

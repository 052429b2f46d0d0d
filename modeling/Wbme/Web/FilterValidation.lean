import Wbme.TableQuery.Prisma
import Wbme.Web.AdvancedFilter

/-!
# Validated filters

What a list page checks of a filter tree before it is applied, and what the service then
refuses of it. The page looks at the form of values only, and at values without the blanks
around them.
-/

namespace Wbme.Web

open TableQuery TableQuery.Prisma

/-! ## Validation -/

inductive FilterFieldType
  | text
  | enum
  | number
  | date
  | time
  | remote
  | tree

structure FilterField where
  key : String
  title : String
  type : Option FilterFieldType

mutual

def FilterNode.flatten : FilterNode → List FilterCondition
  | .condition c => [c]
  | .group _ _ children => flattenList children

def flattenList : List FilterNode → List FilterCondition
  | [] => []
  | node :: nodes => node.flatten ++ flattenList nodes

end

def flattenConditions (root : FilterConditionGroup) : List FilterCondition :=
  flattenList root.children

def fieldByKey (fields : List FilterField) (key : String) : Option FilterField :=
  fields.reverse.find? fun field => field.key == key

def fieldTitle (fields : List FilterField) (c : FilterCondition) : String :=
  ((fieldByKey fields c.field).map FilterField.title).getD c.field

def fieldType (fields : List FilterField) (c : FilterCondition) : FilterFieldType :=
  ((fieldByKey fields c.field).bind FilterField.type).getD .text

def isValueFormatValid (type : FilterFieldType) (value : String) : Bool :=
  match type with
  | .number => (parseDecimal (Menu.trim value).toList).isSome
  | .date => (parseDate (Menu.trim value).toList).isSome
  | .time => (parseTime (Menu.trim value).toList).isSome
  | _ => true

def valueFormatDescription : FilterFieldType → String
  | .number => "需为数字"
  | .date => "需为 YYYY-MM-DD 日期"
  | .time => "需为 HH:mm 时间"
  | _ => "格式不正确"

def conditionErrors (fields : List FilterField) (c : FilterCondition) : List String :=
  let title := fieldTitle fields c
  let type := fieldType fields c
  let malformed := s!"「{title}」的值格式不正确（{valueFormatDescription type}）"
  if noValueOperators.contains c.operator then []
  else if c.operator = "BETWEEN" then
    let hasStart := Menu.trim c.value != ""
    let hasEnd := Menu.trim (c.valueEnd.getD "") != ""
    if hasStart != hasEnd then [s!"「{title}」的介于条件需要同时填写起止值"]
    else if !hasStart then []
    else if !isValueFormatValid type c.value || !isValueFormatValid type (c.valueEnd.getD "") then
      [malformed]
    else []
  else if Menu.trim c.value = "" then []
  else if !isValueFormatValid type c.value then [malformed]
  else []

def validateFilterTree (root : FilterConditionGroup) (fields : List FilterField) : List String :=
  (flattenConditions root).flatMap (conditionErrors fields)

/-! ## The conditions that are sent -/

def keptConditions (root : FilterConditionGroup) : List FilterCondition :=
  flattenConditions (pruneFilterTree root)

mutual

theorem leaves_erased : ∀ node : FilterNode,
    node.erased.leaves = node.flatten.map FilterCondition.erased
  | .condition c => rfl
  | .group _ logic children => by
      rw [FilterNode.erased, TableFilterTreeNode.leaves, FilterNode.flatten]
      exact leavesList_erased children

theorem leavesList_erased : ∀ nodes : List FilterNode,
    leavesList (erasedList nodes) = (flattenList nodes).map FilterCondition.erased
  | [] => rfl
  | node :: nodes => by
      rw [erasedList, leavesList, flattenList, List.map_append, leaves_erased node,
        leavesList_erased nodes]

end

theorem mem_flattenList {nodes : List FilterNode} {c : FilterCondition} :
    c ∈ flattenList nodes ↔ ∃ node ∈ nodes, c ∈ node.flatten := by
  induction nodes with
  | nil => simp [flattenList]
  | cons node nodes ih => simp [flattenList, ih]

variable {server : String → Option TablePrismaField} {root : FilterConditionGroup}
  {c : FilterCondition}

theorem flatten_condition {conditions : List FilterCondition} :
    c ∈ flattenList (conditions.map .condition) ↔ c ∈ conditions := by
  rw [mem_flattenList]
  constructor
  · intro ⟨node, hnode, hc⟩
    obtain ⟨c', hc', rfl⟩ := List.mem_map.mp hnode
    rw [FilterNode.flatten, List.mem_singleton] at hc
    exact hc ▸ hc'
  · intro hc
    exact ⟨.condition c, List.mem_map_of_mem hc, List.mem_singleton_self c⟩

theorem mem_flatten_pruned {node child : FilterNode} (h : pruneChild node = some child)
    {c : FilterCondition} (hc : c ∈ child.flatten) :
    c ∈ node.flatten ∧ isConditionPopulated c = true := by
  have hpruned := pruneChild_isPruned h
  cases node with
  | condition c' =>
      by_cases hc' : isConditionPopulated c' = true
      · rw [pruneChild, if_pos hc'] at h
        cases h
        rw [FilterNode.flatten, List.mem_singleton] at hc
        exact ⟨hc ▸ List.mem_singleton_self c, hc ▸ hc'⟩
      · rw [pruneChild, if_neg hc'] at h
        cases h
  | group id logic children =>
      by_cases hempty : (children.filterMap FilterNode.populated?).isEmpty = true
      · simp only [pruneChild, if_pos hempty] at h
        cases h
      · simp only [pruneChild, if_neg hempty] at h
        cases h
        rw [FilterNode.flatten, flatten_condition] at hc
        obtain ⟨member, hmember, hpopulated⟩ := List.mem_filterMap.mp hc
        have hcp := populated_of_populated? hpopulated
        cases member with
        | condition c' =>
            rw [FilterNode.populated?] at hpopulated
            split at hpopulated
            · cases hpopulated
              exact ⟨mem_flattenList.mpr ⟨_, hmember, List.mem_singleton_self c⟩, hcp⟩
            · cases hpopulated
        | group => cases hpopulated

theorem mem_keptConditions (h : c ∈ keptConditions root) :
    c ∈ flattenConditions root ∧ isConditionPopulated c = true := by
  obtain ⟨child, hchild, hc⟩ := mem_flattenList.mp h
  obtain ⟨node, hnode, hpruned⟩ := List.mem_filterMap.mp hchild
  obtain ⟨hmem, hpopulated⟩ := mem_flatten_pruned hpruned hc
  exact ⟨mem_flattenList.mpr ⟨node, hnode, hmem⟩, hpopulated⟩

theorem payload_accepted {now : Int} :
    (∀ payload, buildFilterTreePayload root = some payload →
      Accepted (buildTablePrismaQuery now server (some (some payload.toJson)))) ↔
      ∀ c ∈ keptConditions root, Accepted (compileCondition now server c.erased) := by
  have hleaves : (∀ c ∈ (pruneFilterTree root).erased.leaves,
      Accepted (compileCondition now server c)) ↔
      ∀ c ∈ keptConditions root, Accepted (compileCondition now server c.erased) := by
    rw [FilterConditionGroup.erased, TableFilterTreeNode.leaves, leavesList_erased]
    exact List.forall_mem_map
  rw [← hleaves, ← compileNode_accepted]
  cases hpayload : buildFilterTreePayload root with
  | none =>
      have hchildren := buildFilterTreePayload_eq_none.mp hpayload
      refine iff_of_true (fun payload h => by cases h) ?_
      rw [FilterConditionGroup.erased, hchildren]
      exact accepted_ok _
  | some payload =>
      have hread := normalizeTableFilters_toJson (pruned_isFilterTree root)
      rw [← buildFilterTreePayload_toJson hpayload] at hread
      have hquery : Accepted (buildTablePrismaQuery now server (some (some payload.toJson))) ↔
          Accepted (compileNode now server (pruneFilterTree root).erased) := by
        simp only [buildTablePrismaQuery, parseFilters, hread, Except.map]
        rw [accepted_bind]
        constructor
        · intro h
          rcases h with ⟨tree, htree, h⟩
          cases htree
          obtain ⟨result, hresult, _⟩ := accepted_bind.mp h
          exact ⟨result, hresult⟩
        · intro h
          rcases h with ⟨result, hresult⟩
          exact ⟨_, rfl, accepted_bind.mpr ⟨result, hresult, accepted_ok _⟩⟩
      constructor
      · intro h
        exact hquery.mp (h payload rfl)
      · intro h payload' hpayload'
        cases hpayload'
        exact hquery.mpr h

/-! ## Values on both sides -/

def sameType : FilterFieldType → FieldType → Bool
  | .text, .text => true
  | .enum, .enum => true
  | .number, .number => true
  | .date, .date => true
  | .time, .time => true
  | _, _ => false

/-- A text has the form of a value of the type, as it stands. -/
def isWritten (type : FieldType) (text : String) : Bool :=
  match type with
  | .number => (parseDecimal text.toList).isSome
  | .date => (parseDate text.toList).isSome
  | .time => (parseTime text.toList).isSome
  | _ => true

/-- A number is within the range of doubles; a date is a day of the calendar, of a year of
four digits. -/
def IsReal (type : FieldType) (text : String) : Prop :=
  match type with
  | .number => ∀ q, parseDecimal text.toList = some q → (toDouble q).isSome = true
  | .date => parseDate text.toList ≠ some none
  | _ => True

theorem scalarValue_accepted {type : FieldType} {text : String} :
    Accepted (scalarValue text type) ↔ isWritten type text = true ∧ IsReal type text := by
  cases type with
  | text => simp [scalarValue, isWritten, IsReal, accepted_ok]
  | enum => simp [scalarValue, isWritten, IsReal, accepted_ok]
  | number =>
      cases hq : parseDecimal text.toList with
      | none => simp [scalarValue, isWritten, hq, not_accepted_error]
      | some q =>
          cases hd : toDouble q with
          | none => simp [scalarValue, isWritten, IsReal, hq, hd, not_accepted_error]
          | some d => simp [scalarValue, isWritten, IsReal, hq, hd, accepted_ok]
  | time =>
      cases hm : parseTime text.toList with
      | none => simp [scalarValue, isWritten, hm, not_accepted_error]
      | some minute => simp [scalarValue, isWritten, IsReal, hm, accepted_ok]
  | date =>
      cases hd : parseDate text.toList with
      | none => simp [scalarValue, isWritten, hd, not_accepted_error]
      | some day =>
          cases day with
          | none => simp [scalarValue, IsReal, hd, not_accepted_error]
          | some instant => simp [scalarValue, isWritten, IsReal, hd, accepted_ok]

/-- What the page accepts has the form that the service asks for, unless blanks stand around
it. -/
theorem isWritten_of_valid {type : FilterFieldType} {type' : FieldType} {value : String}
    (hsame : sameType type type' = true) (hvalid : isValueFormatValid type value = true)
    (hblanks : type = .number ∨ type = .date ∨ type = .time → Menu.trim value = value) :
    isWritten type' value = true := by
  cases type <;> cases type' <;> cases hsame
  · rfl
  · rfl
  · rw [isValueFormatValid, hblanks (.inl rfl)] at hvalid
    exact hvalid
  · rw [isValueFormatValid, hblanks (.inr (.inl rfl))] at hvalid
    exact hvalid
  · rw [isValueFormatValid, hblanks (.inr (.inr rfl))] at hvalid
    exact hvalid

/-- A text is a value of the service's type; its form is in question only where the page has
not checked it. -/
def Fits (isChecked : Bool) (type : FieldType) (text : String) : Prop :=
  (isChecked = true ∨ isWritten type text = true) ∧ IsReal type text

theorem fits_iff {isChecked : Bool} {type : FieldType} {text : String}
    (h : isChecked = true → isWritten type text = true) :
    Fits isChecked type text ↔ Accepted (scalarValue text type) := by
  rw [scalarValue_accepted, Fits]
  constructor
  · intro ⟨hform, hreal⟩
    exact ⟨hform.elim h id, hreal⟩
  · intro ⟨hform, hreal⟩
    exact ⟨.inr hform, hreal⟩

/-! ## Operators -/

theorem ofName_between {name : String} :
    TableOperator.ofName name = .between ↔ name = "BETWEEN" := by
  constructor
  · intro h
    have hname := name_ofName name
    rw [h] at hname
    exact hname.symm
  · rintro rfl
    rfl

theorem isValueless_ofName {name : String} :
    isValueless (TableOperator.ofName name) = true ↔ noValueOperators.contains name = true := by
  constructor
  · intro h
    rw [← name_ofName name]
    generalize TableOperator.ofName name = operator at h
    cases operator <;> first | rfl | cases h
  · intro h
    have hmem : name ∈ noValueOperators := by simpa using h
    simp only [noValueOperators, List.mem_cons, List.not_mem_nil, or_false] at hmem
    rcases hmem with rfl | rfl | rfl | rfl | rfl | rfl | rfl | rfl <;> rfl

section Checked

variable {fields : List FilterField} {c : FilterCondition}

theorem of_conditionErrors_nil (hop : noValueOperators.contains c.operator = false)
    (hvalue : (Menu.trim c.value != "") = true) (herrors : conditionErrors fields c = []) :
    isValueFormatValid (fieldType fields c) c.value = true ∧
      (c.operator = "BETWEEN" → (Menu.trim (c.valueEnd.getD "") != "") = true ∧
        isValueFormatValid (fieldType fields c) (c.valueEnd.getD "") = true) := by
  simp only [conditionErrors, hop, Bool.false_eq_true, if_false, hvalue] at herrors
  by_cases hbetween : c.operator = "BETWEEN"
  · rw [if_pos hbetween] at herrors
    cases hend : Menu.trim (c.valueEnd.getD "") != "" with
    | false => simp [hend] at herrors
    | true =>
        cases hstart : isValueFormatValid (fieldType fields c) c.value <;>
          cases hlast : isValueFormatValid (fieldType fields c) (c.valueEnd.getD "") <;>
            simp_all
  · rw [if_neg hbetween, if_neg (by simpa using hvalue)] at herrors
    cases hstart : isValueFormatValid (fieldType fields c) c.value with
    | false => simp [hstart] at herrors
    | true => exact ⟨rfl, fun h => (hbetween h).elim⟩

theorem value_of_populated (hpopulated : isConditionPopulated c = true)
    (hneeds : isValueless (TableOperator.ofName c.operator) = false) :
    noValueOperators.contains c.operator = false ∧ (Menu.trim c.value != "") = true := by
  have hop : noValueOperators.contains c.operator = false := by
    rw [← Bool.not_eq_true, ← isValueless_ofName, hneeds]
    exact Bool.false_ne_true
  rw [isConditionPopulated, hop, Bool.or_false] at hpopulated
  exact ⟨hop, hpopulated⟩

theorem value_valid (hpopulated : isConditionPopulated c = true)
    (herrors : conditionErrors fields c = [])
    (hneeds : isValueless (TableOperator.ofName c.operator) = false) :
    isValueFormatValid (fieldType fields c) c.value = true := by
  obtain ⟨hop, hvalue⟩ := value_of_populated hpopulated hneeds
  exact (of_conditionErrors_nil hop hvalue herrors).1

theorem valueEnd_valid (hpopulated : isConditionPopulated c = true)
    (herrors : conditionErrors fields c = []) (hop : TableOperator.ofName c.operator = .between) :
    ∃ valueEnd, c.valueEnd = some valueEnd ∧ valueEnd ≠ "" ∧
      isValueFormatValid (fieldType fields c) valueEnd = true := by
  have hneeds : isValueless (TableOperator.ofName c.operator) = false := by
    rw [hop]
    rfl
  obtain ⟨hvalueless, hvalue⟩ := value_of_populated hpopulated hneeds
  obtain ⟨hend, hvalid⟩ :=
    (of_conditionErrors_nil hvalueless hvalue herrors).2 (ofName_between.mp hop)
  have hempty : (Menu.trim "" != "") = false := by decide
  cases hlast : c.valueEnd with
  | none =>
      rw [hlast, Option.getD_none, hempty] at hend
      cases hend
  | some valueEnd =>
      rw [hlast] at hend hvalid
      refine ⟨valueEnd, rfl, ?_, hvalid⟩
      rintro rfl
      rw [Option.getD_some, hempty] at hend
      cases hend

/-- No blanks stand around the values that the page checks as numbers, dates or times. -/
def NoBlanks (fields : List FilterField) (c : FilterCondition) : Prop :=
  fieldType fields c = .number ∨ fieldType fields c = .date ∨ fieldType fields c = .time →
    (isValueless (TableOperator.ofName c.operator) = false → Menu.trim c.value = c.value) ∧
      (TableOperator.ofName c.operator = .between →
        ∀ valueEnd, c.valueEnd = some valueEnd → Menu.trim valueEnd = valueEnd)

/-- The end of a range is not before its start. -/
def InOrder (type : FieldType) (start last : String) : Prop :=
  ∀ a b, scalarValue start type = .ok a → scalarValue last type = .ok b → ¬ precedes b a

/-- The standard compiler has the operator for the type, and the values fit. -/
def IsOffered (isChecked : Bool) (type : FieldType) (c : FilterCondition) : Prop :=
  let operator := TableOperator.ofName c.operator
  valuelessOperators.contains operator = true ∨
    relativeDateOperators.contains operator = true ∧ type = .date ∨
    operator ∈ operatorsOf type ∧ Fits isChecked type c.value ∧
      (operator = .between → ∀ valueEnd, c.valueEnd = some valueEnd →
        Fits isChecked type valueEnd ∧ InOrder type c.value valueEnd)

/-- The values fit that a field's own compiler is given, an end that belongs to no range
among them. -/
def HasFittingValues (isChecked : Bool) (definition : TablePrismaField) (c : FilterCondition) :
    Prop :=
  let operator := TableOperator.ofName c.operator
  definition.compile.isSome = true →
    (isValueless operator = false → Fits isChecked definition.type c.value) ∧
      ∀ valueEnd, c.valueEnd = some valueEnd →
        Fits (isChecked && operator == .between) definition.type valueEnd

/-- A field that the service knows, whose own compiler takes the condition or leaves it to a
column and an operator of the field's type. -/
def IsUnderstood (fields : List FilterField) (server : String → Option TablePrismaField)
    (c : FilterCondition) : Prop :=
  ∃ definition, server c.field = some definition ∧
    let isChecked := sameType (fieldType fields c) definition.type
    HasFittingValues isChecked definition c ∧
      ((∃ result, verdict definition c.erased = .ok (some result)) ∨
        verdict definition c.erased = .ok none ∧ definition.prismaFields.isSome = true ∧
          IsOffered isChecked definition.type c)

variable {isChecked : Bool} {type : FieldType} {definition : TablePrismaField}

theorem isOffered_iff
    (hvalue : isValueless (TableOperator.ofName c.operator) = false → isChecked = true →
      isWritten type c.value = true)
    (hend : TableOperator.ofName c.operator = .between → ∃ valueEnd, c.valueEnd = some valueEnd ∧
      valueEnd ≠ "" ∧ (isChecked = true → isWritten type valueEnd = true)) :
    IsOffered isChecked type c ↔ IsStandard type c.erased := by
  show IsOffered isChecked type c ↔
    valuelessOperators.contains (TableOperator.ofName c.operator) = true ∨ _ ∨ _
  refine or_congr_right (or_congr_right ?_)
  apply and_congr_right
  intro hop
  have hfits := fits_iff (hvalue (needs_value hop))
  rw [hfits]
  constructor
  · intro ⟨⟨value, haccepted⟩, hrange⟩
    refine ⟨value, haccepted, fun hbetween => ?_⟩
    obtain ⟨valueEnd, hlast, hne, hwritten⟩ := hend hbetween
    obtain ⟨hlastFits, horder⟩ := hrange hbetween valueEnd hlast
    obtain ⟨last, hlastValue⟩ := (fits_iff hwritten).mp hlastFits
    refine ⟨valueEnd, last, ?_, hlastValue, horder value last haccepted hlastValue⟩
    show c.valueEnd.filter (· ≠ "") = some valueEnd
    rw [hlast]
    simp [hne]
  · intro ⟨value, hvalueOk, hrange⟩
    refine ⟨⟨value, hvalueOk⟩, fun hbetween valueEnd hlast => ?_⟩
    obtain ⟨valueEnd', hlast', hne, hwritten⟩ := hend hbetween
    rw [hlast] at hlast'
    cases hlast'
    have hvalueEnd : valueEndOf c.erased = some valueEnd := by
      show c.valueEnd.filter (· ≠ "") = some valueEnd
      rw [hlast]
      simp [hne]
    obtain ⟨last, hlastValue, horder⟩ := (isRange_iff hvalueEnd).mp (hrange hbetween)
    refine ⟨(fits_iff hwritten).mpr ⟨last, hlastValue⟩, ?_⟩
    intro a b ha hb
    cases hvalueOk.symm.trans ha
    cases hlastValue.symm.trans hb
    exact horder

theorem hasFittingValues_iff
    (hvalue : isValueless (TableOperator.ofName c.operator) = false → isChecked = true →
      isWritten definition.type c.value = true)
    (hend : TableOperator.ofName c.operator = .between → ∃ valueEnd, c.valueEnd = some valueEnd ∧
      valueEnd ≠ "" ∧ (isChecked = true → isWritten definition.type valueEnd = true)) :
    HasFittingValues isChecked definition c ↔ IsReadable definition c.erased := by
  apply imp_congr_right
  intro _
  apply and_congr
  · apply imp_congr_right
    intro hneeds
    exact fits_iff (hvalue hneeds)
  · show _ ↔ ∀ valueEnd, c.valueEnd = some valueEnd → _
    apply forall_congr'
    intro valueEnd
    apply imp_congr_right
    intro hlast
    apply fits_iff
    intro hchecked
    rw [Bool.and_eq_true, beq_iff_eq] at hchecked
    obtain ⟨valueEnd', hlast', _, hwritten⟩ := hend hchecked.2
    rw [hlast] at hlast'
    cases hlast'
    exact hwritten hchecked.1

theorem isUnderstood_iff {now : Int} (hpopulated : isConditionPopulated c = true)
    (herrors : conditionErrors fields c = []) (hblanks : NoBlanks fields c) :
    IsUnderstood fields server c ↔ Accepted (compileCondition now server c.erased) := by
  rw [compileCondition_accepted]
  apply exists_congr
  intro definition
  apply and_congr_right
  intro _
  have hvalue (hneeds : isValueless (TableOperator.ofName c.operator) = false)
      (hsame : sameType (fieldType fields c) definition.type = true) :
      isWritten definition.type c.value = true :=
    isWritten_of_valid hsame (value_valid hpopulated herrors hneeds)
      fun htype => (hblanks htype).1 hneeds
  have hend (hop : TableOperator.ofName c.operator = .between) :
      ∃ valueEnd, c.valueEnd = some valueEnd ∧ valueEnd ≠ "" ∧
        (sameType (fieldType fields c) definition.type = true →
          isWritten definition.type valueEnd = true) := by
    obtain ⟨valueEnd, hlast, hne, hvalid⟩ := valueEnd_valid hpopulated herrors hop
    exact ⟨valueEnd, hlast, hne, fun hsame =>
      isWritten_of_valid hsame hvalid fun htype => (hblanks htype).2 hop valueEnd hlast⟩
  exact and_congr (hasFittingValues_iff hvalue hend)
    (or_congr_right (and_congr_right fun _ => and_congr_right fun _ => isOffered_iff hvalue hend))

end Checked

/-- When validation shows no error and no checked value has blanks around it, the service
accepts what is sent exactly if it understands every condition that is sent. -/
theorem validated_payload_accepted (root : FilterConditionGroup) (fields : List FilterField)
    (server : String → Option TablePrismaField) (now : Int)
    (hvalid : validateFilterTree root fields = [])
    (hblanks : ∀ c ∈ keptConditions root, NoBlanks fields c) :
    (∀ payload, buildFilterTreePayload root = some payload →
      Accepted (buildTablePrismaQuery now server (some (some payload.toJson)))) ↔
      ∀ c ∈ keptConditions root, IsUnderstood fields server c := by
  rw [payload_accepted]
  apply forall_congr'
  intro c
  apply imp_congr_right
  intro hc
  obtain ⟨hmem, hpopulated⟩ := mem_keptConditions hc
  have herrors := List.flatMap_eq_nil_iff.mp hvalid c hmem
  exact (isUnderstood_iff hpopulated herrors (hblanks c hc)).symm

def dayRange (start last : String) : FilterConditionGroup :=
  { id := "", logic := .and
    children := [.condition ⟨"", "day", "BETWEEN", start, some last, none⟩] }

def dayFields : List FilterField := [⟨"day", "日期", some .date⟩]

def dayColumns (name : String) : Option TablePrismaField :=
  if name = "day" then some (.columns ["day"] .date none) else none

theorem validated_payload_accepted_days :
    ∃ payload, buildFilterTreePayload (dayRange "2026-02-01" "2026-02-03") = some payload ∧
      Accepted (buildTablePrismaQuery 0 dayColumns (some (some payload.toJson))) := by
  refine ⟨_, rfl, (validated_payload_accepted (dayRange "2026-02-01" "2026-02-03") dayFields
    dayColumns 0 (by decide +kernel) ?_).mpr ?_ _ rfl⟩
  · intro c hc
    rw [List.mem_singleton.mp hc]
    refine fun _ => ⟨fun _ => by decide +kernel, fun _ valueEnd h => ?_⟩
    cases h
    decide +kernel
  · intro c hc
    rw [List.mem_singleton.mp hc]
    have hstart : scalarValue "2026-02-01" .date =
        .ok (.date (shanghaiDayStart (daysFromCivil 2026 2 1))) := rfl
    have hlast : scalarValue "2026-02-03" .date =
        .ok (.date (shanghaiDayStart (daysFromCivil 2026 2 3))) := rfl
    refine ⟨.columns ["day"] .date none, rfl, fun h => (by cases h), .inr ⟨rfl, rfl, ?_⟩⟩
    refine .inr (.inr ⟨by decide, ⟨.inl rfl, ?_⟩, fun _ valueEnd h => ?_⟩)
    · exact (scalarValue_accepted.mp ⟨_, hstart⟩).2
    · cases h
      refine ⟨⟨.inl rfl, (scalarValue_accepted.mp ⟨_, hlast⟩).2⟩, fun a b ha hb => ?_⟩
      cases hstart.symm.trans ha
      cases hlast.symm.trans hb
      show ¬ shanghaiDayStart (daysFromCivil 2026 2 3) < shanghaiDayStart (daysFromCivil 2026 2 1)
      decide

/-- Validation does not compare the ends of a range. -/
theorem reversed_days_refused :
    ¬ ∀ (root : FilterConditionGroup) (fields : List FilterField)
      (server : String → Option TablePrismaField) (now : Int),
      validateFilterTree root fields = [] →
        ∀ payload, buildFilterTreePayload root = some payload →
          Accepted (buildTablePrismaQuery now server (some (some payload.toJson))) := by
  intro h
  have hvalid : validateFilterTree (dayRange "2026-02-03" "2026-02-01") dayFields = [] := by
    decide +kernel
  exact not_accepted_error _ (h _ dayFields dayColumns 0 hvalid _ rfl)

end Wbme.Web

import Wbme.Fin.FieldTexts
import Wbme.Fin.Projects

/-! # What an edit changes

An edit that finds no difference leaves the project alone. Differences are found by comparing
texts, while columns hold values: a number of hundredths, a day.
-/

namespace Wbme.Fin

/-! ## Comparing fields -/

theorem fieldValuesEqual_iff {oldValue newValue : Json} :
    fieldValuesEqual oldValue newValue = true ↔
      (isEmptyFieldValue oldValue = true ∧ isEmptyFieldValue newValue = true) ∨
        oldValue = newValue := by
  rw [fieldValuesEqual, Bool.or_eq_true, Bool.and_eq_true]
  apply or_congr_right
  constructor
  · exact Json.eq_of_beq _ _
  · intro h
    rw [h]
    exact Json.beq_self _

theorem textsEqual_iff {a b : Option String} :
    fieldValuesEqual (jsonText a) (jsonText b) = true ↔ a = b := by
  rw [fieldValuesEqual_iff]
  cases a <;> cases b <;> simp [jsonText, isEmptyFieldValue]

theorem namesEqual_iff {a b : String} : fieldValuesEqual (.str a) (.str b) = true ↔ a = b := by
  rw [fieldValuesEqual_iff]
  simp [isEmptyFieldValue]

theorem yearsEqual_iff {a b : Nat} : fieldValuesEqual (.num a) (.num b) = true ↔ a = b := by
  rw [fieldValuesEqual_iff]
  simp [isEmptyFieldValue]

theorem idsEqual_iff {a b : Option Nat} :
    fieldValuesEqual (jsonId a) (jsonId b) = true ↔ a = b := by
  rw [fieldValuesEqual_iff]
  cases a <;> cases b <;> simp [jsonId, isEmptyFieldValue]

theorem isEmptyFieldValue_arr {items : List Json} :
    isEmptyFieldValue (.arr items) = true ↔ items = [] := by
  cases items <;> simp [isEmptyFieldValue]

theorem jsonTexts_injective {a b : List String} (h : jsonTexts a = jsonTexts b) : a = b := by
  rw [jsonTexts, jsonTexts, Json.arr.injEq] at h
  exact List.map_injective_iff.mpr (fun x y hxy => Json.str.inj hxy) h

theorem listsEqual_iff {a b : List String} :
    fieldValuesEqual (jsonTexts a) (jsonTexts b) = true ↔ a = b := by
  rw [fieldValuesEqual_iff]
  constructor
  · intro h
    rcases h with ⟨ha, hb⟩ | h
    · rw [List.map_eq_nil_iff.mp (isEmptyFieldValue_arr.mp ha),
        List.map_eq_nil_iff.mp (isEmptyFieldValue_arr.mp hb)]
    · exact jsonTexts_injective h
  · intro h
    exact .inr (by rw [h])

theorem toJson_injective {a b : DictRef} (h : a.toJson = b.toJson) : a = b := by
  obtain ⟨id, name⟩ := a
  obtain ⟨id', name'⟩ := b
  simp [DictRef.toJson] at h
  simp [h]

theorem docsEqual_iff {a : Option (List DictRef)} {b : List DictRef} :
    fieldValuesEqual ((a.map jsonRefs).getD .null) (jsonRefs b) = true ↔ a.getD [] = b := by
  rw [fieldValuesEqual_iff]
  cases a with
  | none => cases b <;> simp [jsonRefs, isEmptyFieldValue]
  | some a =>
      constructor
      · intro h
        rcases h with ⟨ha, hb⟩ | h
        · rw [List.map_eq_nil_iff.mp (isEmptyFieldValue_arr.mp ha),
            List.map_eq_nil_iff.mp (isEmptyFieldValue_arr.mp hb), Option.getD_some]
        · rw [Option.map_some, Option.getD_some, jsonRefs, jsonRefs, Json.arr.injEq] at h
          exact List.map_injective_iff.mpr (fun x y => toJson_injective) h
      · intro h
        exact .inr (by rw [← h]; rfl)

/-! ## Submitted values -/

/-- A text that counts as left out if it is empty. -/
def submitted (text : Option String) : Option String := text.filter (· ≠ "")

theorem submitted_empty : submitted (some "") = none := rfl

def IsAmount (stored : Option Decimal) (text : Option String) : Prop :=
  (submitted text).map decimalOf = stored

def IsDate (stored : Option Int) (text : Option String) : Prop :=
  (submitted text).map dayOf = stored.map some

/-- An amount is written with two decimals. -/
def AmountInForm (text : Option String) : Prop :=
  ∀ t, submitted text = some t → (decimalOf t).toFixed = t

/-- A date is written as a day of the calendar. -/
def DateInForm (text : Option String) : Prop :=
  ∀ t, text = some t → (dayOf t).map formatCalendarDate = some t

/-- What the form of a request is checked for. -/
def IsAmountText (text : Option String) : Prop :=
  ∀ t, submitted text = some t → isNonNegativeAmount t = true

def IsDateText (text : Option String) : Prop :=
  ∀ t, submitted text = some t → (dateParts t).isSome = true

theorem amountsEqual_iff {stored : Option Decimal} {text : Option String}
    (htext : IsAmountText text) :
    fieldValuesEqual (jsonText (stored.map Decimal.toFixed)) (submittedAmount text) = true ↔
      IsAmount stored text ∧ AmountInForm text := by
  have hsubmitted : submittedAmount text = jsonText (submitted text) := rfl
  rw [hsubmitted, textsEqual_iff]
  unfold IsAmount AmountInForm
  unfold IsAmountText at htext
  cases hs : submitted text with
  | none => cases stored <;> simp
  | some t =>
      cases stored with
      | none => simp
      | some d =>
          have hiff := toFixed_eq_iff (d := d) (htext t hs)
          simp only [Option.map_some, Option.some.injEq, forall_eq']
          rw [hiff, eq_comm]

theorem datesEqual_iff {stored : Option Int} {text : Option String} (htext : IsDateText text) :
    fieldValuesEqual (jsonText (stored.map formatCalendarDate)) (jsonText text) = true ↔
      IsDate stored text ∧ DateInForm text := by
  rw [textsEqual_iff]
  unfold IsDate DateInForm
  unfold IsDateText at htext
  cases text with
  | none => cases stored <;> simp [submitted]
  | some t =>
      by_cases hempty : t = ""
      · subst hempty
        have hnot (n : Int) : formatCalendarDate n ≠ "" := by
          intro h
          have hchars := congrArg String.toList h
          simp [formatCalendarDate] at hchars
          exact absurd hchars.2.1 (by decide)
        refine iff_of_false ?_ ?_
        · cases stored with
          | none => simp
          | some n =>
              intro h
              exact hnot n (Option.some.inj h)
        · intro h
          cases h.2 "" rfl
      · have hs : submitted (some t) = some t := by simp [submitted, hempty]
        rw [hs]
        cases stored with
        | none => simp
        | some n =>
            simp only [Option.map_some, Option.some.injEq, forall_eq']
            constructor
            · intro h
              have hday := dayOf_formatCalendarDate (htext t hs) h
              exact ⟨hday, by rw [hday, Option.map_some, h]⟩
            · intro h
              rcases h with ⟨hday, h⟩
              rw [hday] at h
              exact Option.some.inj h

/-! ## Whole forms -/

structure ProjectCreateDto.Checked (dto : ProjectCreateDto) : Prop where
  contractStartDate : IsDateText dto.contractStartDate
  contractEndDate : IsDateText dto.contractEndDate
  contractAmount : IsAmountText dto.contractAmount
  tentativeAuditedAmount : IsAmountText dto.tentativeAuditedAmount
  settlement : IsAmountText dto.settlement
  miscExpense : IsAmountText dto.miscExpense

structure ProjectCreateDto.InForm (dto : ProjectCreateDto) : Prop where
  contractStartDate : DateInForm dto.contractStartDate
  contractEndDate : DateInForm dto.contractEndDate
  contractAmount : AmountInForm dto.contractAmount
  tentativeAuditedAmount : AmountInForm dto.tentativeAuditedAmount
  settlement : AmountInForm dto.settlement
  miscExpense : AmountInForm dto.miscExpense

/-- A form submits what is stored: amounts as numbers, dates as days, no documents like an
empty list of them, and no semantic like the tentative one. -/
structure Submits (existing : Project) (dto : ProjectCreateDto) (snapshots : DictSnapshots) :
    Prop where
  name : existing.name = dto.name
  year : existing.year = dto.year
  completenessDocs : existing.completenessDocs.getD [] = snapshots.completenessDocs
  regionId : existing.regionId = dto.regionId
  regionName : existing.regionName = snapshots.regionName
  progressId : existing.progressId = dto.progressId
  progressName : existing.progressName = snapshots.progressName
  progressSemantic : semanticOr existing.progressSemantic = semanticOr snapshots.progressSemantic
  bizCategoryId : existing.bizCategoryId = dto.bizCategoryId
  bizCategoryName : existing.bizCategoryName = snapshots.bizCategoryName
  partyA : existing.partyA = dto.partyA
  generalContractor : existing.generalContractor = dto.generalContractor
  managementFee : existing.managementFee = dto.managementFee
  subcontractors : existing.subcontractors = dto.subcontractors.getD []
  contractStartDate : IsDate existing.contractStartDate dto.contractStartDate
  contractEndDate : IsDate existing.contractEndDate dto.contractEndDate
  contractAmount : IsAmount existing.contractAmount dto.contractAmount
  paymentNode : existing.paymentNode = dto.paymentNode
  tentativeAuditedAmount : IsAmount existing.tentativeAuditedAmount dto.tentativeAuditedAmount
  settlement : IsAmount existing.settlement dto.settlement
  miscExpense : IsAmount existing.miscExpense dto.miscExpense
  remark : existing.remark = dto.remark

section Forms

variable {existing : Project} {dto : ProjectCreateDto} {snapshots : DictSnapshots}

theorem diffProject_eq_nil :
    diffProject existing dto snapshots = [] ↔
      (∀ field ∈ projectFields,
        fieldValuesEqual (fieldValue existing field) (dtoValue dto snapshots field) = true) ∧
        (∀ pair ∈ snapshotPairs existing snapshots, pair.2.1 = pair.2.2) ∧
        semanticOr existing.progressSemantic = semanticOr snapshots.progressSemantic := by
  simp only [diffProject, List.append_eq_nil_iff, List.filterMap_eq_nil_iff]
  rw [and_assoc]
  refine and_congr ?_ (and_congr ?_ ?_)
  · apply forall_congr'
    intro field
    apply imp_congr_right
    intro _
    split <;> simp_all
  · apply forall_congr'
    intro pair
    apply imp_congr_right
    intro _
    split <;> simp_all
  · split <;> simp_all

theorem diffProject_eq_nil_iff (hdto : dto.Checked) :
    diffProject existing dto snapshots = [] ↔ Submits existing dto snapshots ∧ dto.InForm := by
  rw [diffProject_eq_nil]
  simp only [projectFields, snapshotPairs, List.forall_mem_cons, List.not_mem_nil, false_imp_iff,
    implies_true, and_true, fieldValue, dtoValue, namesEqual_iff, yearsEqual_iff, textsEqual_iff,
    idsEqual_iff, listsEqual_iff, docsEqual_iff, amountsEqual_iff hdto.contractAmount,
    amountsEqual_iff hdto.tentativeAuditedAmount, amountsEqual_iff hdto.settlement,
    amountsEqual_iff hdto.miscExpense, datesEqual_iff hdto.contractStartDate,
    datesEqual_iff hdto.contractEndDate]
  constructor
  · intro h
    obtain ⟨⟨name, year, docs, region, progress, category, partyA, contractor, fee, subs,
      ⟨startDate, startForm⟩, ⟨endDate, endForm⟩, ⟨amount, amountForm⟩, node,
      ⟨tentative, tentativeForm⟩, ⟨settled, settledForm⟩, ⟨misc, miscForm⟩, remark⟩,
      ⟨regionName, progressName, categoryName⟩, semantic⟩ := h
    exact ⟨⟨name, year, docs, region, regionName, progress, progressName, semantic, category,
      categoryName, partyA, contractor, fee, subs, startDate, endDate, amount, node, tentative,
      settled, misc, remark⟩,
      ⟨startForm, endForm, amountForm, tentativeForm, settledForm, miscForm⟩⟩
  · intro h
    obtain ⟨s, f⟩ := h
    exact ⟨⟨s.name, s.year, s.completenessDocs, s.regionId, s.progressId, s.bizCategoryId,
      s.partyA, s.generalContractor, s.managementFee, s.subcontractors,
      ⟨s.contractStartDate, f.contractStartDate⟩, ⟨s.contractEndDate, f.contractEndDate⟩,
      ⟨s.contractAmount, f.contractAmount⟩, s.paymentNode,
      ⟨s.tentativeAuditedAmount, f.tentativeAuditedAmount⟩, ⟨s.settlement, f.settlement⟩,
      ⟨s.miscExpense, f.miscExpense⟩, s.remark⟩,
      ⟨s.regionName, s.progressName, s.bizCategoryName⟩, s.progressSemantic⟩

end Forms

/-! ## Written values -/

/-- What a row means: no documents are an empty list, and no semantic is the tentative one. -/
def ProjectData.meaning (p : ProjectData) : ProjectData :=
  { p with
    completenessDocs := some (p.completenessDocs.getD [])
    progressSemantic := some (semanticOr p.progressSemantic) }

/-- The amounts of a row are within the range of their columns. -/
structure ProjectData.InRange (p : ProjectData) : Prop where
  contractAmount : ∀ d, p.contractAmount = some d → d < 10 ^ 18
  tentativeAuditedAmount : ∀ d, p.tentativeAuditedAmount = some d → d < 10 ^ 18
  settlement : ∀ d, p.settlement = some d → d < 10 ^ 18
  miscExpense : ∀ d, p.miscExpense = some d → d < 10 ^ 18

/-- Writing the form over the row leaves what the row means. -/
def LeavesUnchanged (existing : Project) (dto : ProjectCreateDto) (businessKey : String)
    (snapshots : DictSnapshots) : Prop :=
  ∃ data, buildProjectData dto businessKey snapshots = .ok data ∧
    data.meaning = existing.toProjectData.meaning

theorem storeOptional_eq {column : String} {text : Option String} {stored : Option Decimal}
    (hrange : ∀ d, stored = some d → d < 10 ^ 18) :
    storeOptional column text = .ok stored ↔ IsAmount stored text := by
  unfold IsAmount
  cases text with
  | none => exact ⟨Except.ok.inj, congrArg Except.ok⟩
  | some t =>
      by_cases hempty : t = ""
      · subst hempty
        rw [submitted_empty]
        exact ⟨Except.ok.inj, congrArg Except.ok⟩
      · have hs : submitted (some t) = some t := by simp [submitted, hempty]
        have hstore : storeOptional column (some t) = (storeDecimal column t).map some := by
          unfold storeOptional
          split
          · rename_i h
            cases h
          · rename_i h
            exact absurd (Option.some.inj h) hempty
          · rename_i h
            cases h
            rfl
        rw [hs, hstore, storeDecimal]
        constructor
        · intro h
          split at h
          · exact Except.ok.inj h
          · cases h
        · intro h
          have hlt := hrange (decimalOf t) h.symm
          rw [if_pos hlt]
          exact congrArg Except.ok h

theorem storeOptionalDate_eq {column : String} {text : Option String} {stored : Option Int} :
    storeOptionalDate column text = .ok stored ↔ IsDate stored text := by
  unfold IsDate
  cases text with
  | none => cases stored <;> simp [storeOptionalDate, submitted]
  | some t =>
      by_cases hempty : t = ""
      · subst hempty
        cases stored <;> simp [storeOptionalDate, submitted]
      · have hs : submitted (some t) = some t := by simp [submitted, hempty]
        have hstore : storeOptionalDate column (some t) = (storeDate column t).map some := by
          simp [storeOptionalDate]
        rw [hs, hstore, Option.map_some]
        have hiff := fun n => @storeDate_eq_ok column t n
        cases hdate : storeDate column t with
        | error e =>
            have hnone : dayOf t = none := by
              cases hday : dayOf t with
              | none => rfl
              | some n =>
                  rw [(hiff n).mpr hday] at hdate
                  cases hdate
            cases stored <;> simp [hnone, Except.map]
        | ok n =>
            rw [(hiff n).mp hdate]
            cases stored <;> simp [Except.map]

variable {snapshots : DictSnapshots} {dto : ProjectCreateDto} {businessKey : String}

theorem buildProjectData_eq_ok {data : ProjectData} :
    buildProjectData dto businessKey snapshots = .ok data ↔
      storeOptionalDate "contract_start_date" dto.contractStartDate = .ok data.contractStartDate ∧
      storeOptionalDate "contract_end_date" dto.contractEndDate = .ok data.contractEndDate ∧
      storeOptional "contract_amount" dto.contractAmount = .ok data.contractAmount ∧
      storeOptional "tentative_audited_amount" dto.tentativeAuditedAmount =
        .ok data.tentativeAuditedAmount ∧
      storeOptional "settlement" dto.settlement = .ok data.settlement ∧
      storeOptional "misc_expense" dto.miscExpense = .ok data.miscExpense ∧
      data =
        { data with
          name := dto.name
          year := dto.year
          businessKey
          completenessDocs := some snapshots.completenessDocs
          regionId := dto.regionId
          regionName := snapshots.regionName
          progressId := dto.progressId
          progressName := snapshots.progressName
          progressSemantic := snapshots.progressSemantic
          bizCategoryId := dto.bizCategoryId
          bizCategoryName := snapshots.bizCategoryName
          partyA := dto.partyA
          generalContractor := dto.generalContractor
          managementFee := dto.managementFee
          subcontractors := dto.subcontractors.getD []
          paymentNode := dto.paymentNode
          remark := dto.remark } := by
  constructor
  · intro h
    simp only [buildProjectData, bind, Except.bind, pure, Except.pure] at h
    repeat' split at h
    all_goals cases h
    refine ⟨?_, ?_, ?_, ?_, ?_, ?_, rfl⟩ <;> assumption
  · intro ⟨hstart, hend, hamount, htentative, hsettlement, hmisc, hdata⟩
    rw [buildProjectData, hstart, hend, hamount, htentative, hsettlement, hmisc, hdata]
    rfl

theorem meaning_eq_iff {p q : ProjectData} :
    p.meaning = q.meaning ↔
      p.name = q.name ∧ p.year = q.year ∧ p.businessKey = q.businessKey ∧
      p.completenessDocs.getD [] = q.completenessDocs.getD [] ∧ p.regionId = q.regionId ∧
      p.regionName = q.regionName ∧ p.progressId = q.progressId ∧
      p.progressName = q.progressName ∧
      semanticOr p.progressSemantic = semanticOr q.progressSemantic ∧
      p.bizCategoryId = q.bizCategoryId ∧ p.bizCategoryName = q.bizCategoryName ∧
      p.partyA = q.partyA ∧ p.generalContractor = q.generalContractor ∧
      p.managementFee = q.managementFee ∧ p.subcontractors = q.subcontractors ∧
      p.contractStartDate = q.contractStartDate ∧ p.contractEndDate = q.contractEndDate ∧
      p.contractAmount = q.contractAmount ∧ p.paymentNode = q.paymentNode ∧
      p.tentativeAuditedAmount = q.tentativeAuditedAmount ∧ p.settlement = q.settlement ∧
      p.miscExpense = q.miscExpense ∧ p.remark = q.remark := by
  cases p
  cases q
  simp [ProjectData.meaning]

/-- The row keeps its meaning exactly if the form submits what is stored, and the key is the
one that is stored. -/
theorem leavesUnchanged_iff {existing : Project} (hrow : existing.InRange) :
    LeavesUnchanged existing dto businessKey snapshots ↔
      Submits existing dto snapshots ∧ businessKey = existing.businessKey := by
  constructor
  · intro ⟨data, hbuild, hmeaning⟩
    obtain ⟨hstart, hend, hamount, htentative, hsettled, hmisc, hdata⟩ :=
      buildProjectData_eq_ok.mp hbuild
    rw [hdata] at hmeaning
    obtain ⟨name, year, key, docs, region, regionName, progress, progressName, semantic,
      category, categoryName, partyA, contractor, fee, subs, startDate, endDate, amount, node,
      tentative, settled, misc, remark⟩ := meaning_eq_iff.mp hmeaning
    refine ⟨?_, key⟩
    rw [startDate] at hstart
    rw [endDate] at hend
    rw [amount] at hamount
    rw [tentative] at htentative
    rw [settled] at hsettled
    rw [misc] at hmisc
    exact {
      name := name.symm
      year := year.symm
      completenessDocs := docs.symm
      regionId := region.symm
      regionName := regionName.symm
      progressId := progress.symm
      progressName := progressName.symm
      progressSemantic := semantic.symm
      bizCategoryId := category.symm
      bizCategoryName := categoryName.symm
      partyA := partyA.symm
      generalContractor := contractor.symm
      managementFee := fee.symm
      subcontractors := subs.symm
      contractStartDate := storeOptionalDate_eq.mp hstart
      contractEndDate := storeOptionalDate_eq.mp hend
      contractAmount := (storeOptional_eq hrow.contractAmount).mp hamount
      paymentNode := node.symm
      tentativeAuditedAmount := (storeOptional_eq hrow.tentativeAuditedAmount).mp htentative
      settlement := (storeOptional_eq hrow.settlement).mp hsettled
      miscExpense := (storeOptional_eq hrow.miscExpense).mp hmisc
      remark := remark.symm }
  · intro ⟨s, hkey⟩
    let data : ProjectData :=
      { existing.toProjectData with
        completenessDocs := some snapshots.completenessDocs
        progressSemantic := snapshots.progressSemantic }
    refine ⟨data, buildProjectData_eq_ok.mpr ⟨storeOptionalDate_eq.mpr s.contractStartDate,
      storeOptionalDate_eq.mpr s.contractEndDate,
      (storeOptional_eq hrow.contractAmount).mpr s.contractAmount,
      (storeOptional_eq hrow.tentativeAuditedAmount).mpr s.tentativeAuditedAmount,
      (storeOptional_eq hrow.settlement).mpr s.settlement,
      (storeOptional_eq hrow.miscExpense).mpr s.miscExpense, ?_⟩, ?_⟩
    · simp only [data, ← s.name, ← s.year, ← s.regionId, ← s.regionName, ← s.progressId,
        ← s.progressName, ← s.bizCategoryId, ← s.bizCategoryName, ← s.partyA,
        ← s.generalContractor, ← s.managementFee, ← s.subcontractors, ← s.paymentNode,
        ← s.remark, hkey]
    · have hdocs := s.completenessDocs
      have hsemantic := s.progressSemantic
      simp [data, ProjectData.meaning, hdocs, hsemantic]

/-- An edit finds no difference exactly when writing it would leave the row as it is, unless
the form submits what is stored: then exactly if its amounts have two decimals and its dates
are of the calendar for a key that stays, and not so for one that changes. -/
theorem diffProject_tells (existing : Project) (dto : ProjectCreateDto) (businessKey : String)
    (snapshots : DictSnapshots) (hdto : dto.Checked) (hrow : existing.InRange) :
    (diffProject existing dto snapshots = [] ↔
      LeavesUnchanged existing dto businessKey snapshots) ↔
      (Submits existing dto snapshots → (dto.InForm ↔ businessKey = existing.businessKey)) := by
  rw [diffProject_eq_nil_iff hdto, leavesUnchanged_iff hrow]
  constructor
  · intro h hsubmits
    constructor
    · intro hform
      exact (h.mp ⟨hsubmits, hform⟩).2
    · intro hkey
      exact (h.mpr ⟨hsubmits, hkey⟩).2
  · intro h
    exact and_congr_right h

def hundredProject : Project :=
  { name := "A", year := 2026, businessKey := "a", completenessDocs := none, regionId := none
    regionName := none, progressId := none, progressName := none, progressSemantic := none
    bizCategoryId := none, bizCategoryName := none, partyA := none, generalContractor := none
    managementFee := none, subcontractors := [], contractStartDate := none
    contractEndDate := none, contractAmount := some 10000, paymentNode := none
    tentativeAuditedAmount := none, settlement := none, miscExpense := none, remark := none
    dataRevision := 0, updatedAt := 0, deletedBy := none, deletedAt := none }

def hundredForm (amount : String) : ProjectCreateDto :=
  { name := "A", year := 2026, completenessDocs := none, regionId := none, progressId := none
    bizCategoryId := none, partyA := none, generalContractor := none, managementFee := none
    subcontractors := none, contractStartDate := none, contractEndDate := none
    contractAmount := some amount, paymentNode := none, tentativeAuditedAmount := none
    settlement := none, miscExpense := none, remark := none, idempotencyKey := none }

def noChoices : DictSnapshots :=
  { regionName := none, progressName := none, progressSemantic := none, bizCategoryName := none
    completenessDocs := [] }

theorem hundredForm_checked {amount : String} (h : isNonNegativeAmount amount = true) :
    (hundredForm amount).Checked := by
  constructor
  · intro t ht
    cases ht
  · intro t ht
    cases ht
  · intro t ht
    have htext : t = amount := by
      have hsome := Option.filter_eq_some_iff.mp ht
      exact (Option.some.inj hsome.1).symm
    rw [htext, h]
  · intro t ht
    cases ht
  · intro t ht
    cases ht
  · intro t ht
    cases ht

theorem hundredProject_inRange : hundredProject.InRange := by
  constructor
  · intro d hd
    cases hd
    decide
  · intro d hd
    cases hd
  · intro d hd
    cases hd
  · intro d hd
    cases hd

theorem diffProject_tells_hundred :
    (diffProject hundredProject (hundredForm "100.00") noChoices = [] ↔
      LeavesUnchanged hundredProject (hundredForm "100.00") "a" noChoices) ↔
      (Submits hundredProject (hundredForm "100.00") noChoices →
        ((hundredForm "100.00").InForm ↔ "a" = hundredProject.businessKey)) :=
  diffProject_tells hundredProject (hundredForm "100.00") "a" noChoices
    (hundredForm_checked (by decide)) hundredProject_inRange

/-- The amount without decimals is the stored one, and is taken for another. -/
theorem hundred_differs :
    ¬ (diffProject hundredProject (hundredForm "100") noChoices = [] ↔
      LeavesUnchanged hundredProject (hundredForm "100") "a" noChoices) := by
  intro h
  have hunchanged : LeavesUnchanged hundredProject (hundredForm "100") "a" noChoices :=
    ⟨_, rfl, rfl⟩
  have hempty := congrArg List.isEmpty (h.mpr hunchanged)
  revert hempty
  decide +kernel

end Wbme.Fin

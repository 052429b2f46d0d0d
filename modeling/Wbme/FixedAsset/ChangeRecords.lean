import Wbme.FixedAsset.Ledger

/-! # The records of the ledger

An edit records what it changes, field by field, and a hand-over from where to where. But five
fields of an edit are not compared, an amount is compared by its text, and both operations record
what they found and not what they overwrite. Where none of this makes a difference, the records
tell what happened.
-/

namespace Wbme.FixedAsset

open Lib AssetService

/-! ## Fields -/

/-- What an edit may set. -/
inductive BusinessField where
  | name
  | specModel
  | amount
  | usageStatus
  | currentUserId
  | remark
  | categoryId
  | purchaseAt
  | ownership
  | ownerName
  | imageOssKey

namespace BusinessField

/-- The fields that an edit compares. -/
def tracked : List BusinessField := [name, specModel, amount, usageStatus, currentUserId, remark]

def untracked : List BusinessField := [categoryId, purchaseAt, ownership, ownerName, imageOssKey]

def key : BusinessField → String
  | name => "name"
  | specModel => "specModel"
  | amount => "amount"
  | usageStatus => "usageStatus"
  | currentUserId => "currentUserId"
  | remark => "remark"
  | categoryId => "categoryId"
  | purchaseAt => "purchaseAt"
  | ownership => "ownership"
  | ownerName => "ownerName"
  | imageOssKey => "imageOssKey"

/-- Do two rows have the same value? -/
def same (a b : Asset) : BusinessField → Bool
  | name => a.name == b.name
  | specModel => a.specModel == b.specModel
  | amount => a.amount == b.amount
  | usageStatus => a.usageStatus == b.usageStatus
  | currentUserId => a.currentUserId == b.currentUserId
  | remark => a.remark == b.remark
  | categoryId => a.categoryId == b.categoryId
  | purchaseAt => a.purchaseAt == b.purchaseAt
  | ownership => a.ownership == b.ownership
  | ownerName => a.ownerName == b.ownerName
  | imageOssKey => a.imageOssKey == b.imageOssKey

/-- Does an edit state the value that a row has? -/
def isStated (env : FixedEnvironment) (dto : AssetUpdateDto) (a : Asset) : BusinessField → Bool
  | name => a.name == dto.name
  | specModel => a.specModel == dto.specModel
  | amount => a.amount == env.decimal dto.amount
  | usageStatus => a.usageStatus == dto.usageStatus.toAssetStatus
  | currentUserId => a.currentUserId == dto.currentUserId
  | remark => a.remark == dto.remark
  | categoryId => a.categoryId == dto.categoryId
  | purchaseAt => a.purchaseAt == dto.purchaseAt.map env.date
  | ownership => a.ownership == dto.ownership
  | ownerName => a.ownerName == dto.ownerName
  | imageOssKey => a.imageOssKey == dto.imageOssKey

def ownershipCode : AssetOwnership → String
  | .company => "COMPANY"
  | .partner => "PARTNER"

/-- A value as a record holds it. -/
def json (env : FixedEnvironment) (a : Asset) : BusinessField → Json
  | name => .str a.name
  | specModel => jsonText a.specModel
  | amount => .str (env.decimalText a.amount)
  | usageStatus => .str (AssetStatus.code a.usageStatus)
  | currentUserId => jsonId a.currentUserId
  | remark => jsonText a.remark
  | categoryId => jsonId a.categoryId
  | purchaseAt => (a.purchaseAt.map Json.num).getD .null
  | ownership => .str (ownershipCode a.ownership)
  | ownerName => jsonText a.ownerName
  | imageOssKey => jsonText a.imageOssKey

/-- A value as an edit submits it. -/
def submitted (dto : AssetUpdateDto) : BusinessField → Json
  | name => .str dto.name
  | specModel => jsonText dto.specModel
  | amount => .str dto.amount
  | usageStatus => .str (AssetStatus.code dto.usageStatus.toAssetStatus)
  | currentUserId => jsonId dto.currentUserId
  | remark => jsonText dto.remark
  | categoryId => jsonId dto.categoryId
  | purchaseAt => jsonText dto.purchaseAt
  | ownership => .str (ownershipCode dto.ownership)
  | ownerName => jsonText dto.ownerName
  | imageOssKey => jsonText dto.imageOssKey

/-- A record says the value of a row; an amount has many texts. -/
def Says (env : FixedEnvironment) (a : Asset) (f : BusinessField) (x : Json) : Prop :=
  x = f.json env a ∨ (f = amount ∧ ∃ t, x = .str t ∧ env.decimal t = a.amount)

end BusinessField

/-! ## What is promised -/

/-- The fields whose values differ. -/
def differing (before after : Asset) : List BusinessField :=
  (BusinessField.tracked ++ BusinessField.untracked).filter fun f => !f.same before after

/-- A record has exactly these fields, each with the value of a row. -/
def Holds (env : FixedEnvironment) (a : Asset) (fields : List BusinessField) (x : Json) : Prop :=
  ∃ entries : List (String × Json), x = .obj entries ∧
    List.Forall₂ (fun f e => e.1 = f.key ∧ f.Says env a e.2) fields entries

structure IsRecorded (a : LedgerActivity) (before after : Asset) (added : List AssetChange) :
    Prop where
  none : differing before after = [] → added = []
  one : differing before after ≠ [] → ∃ record, added = [record] ∧
    record.assetId = a.assetId ∧ record.operatorId = a.operator.id ∧
    Holds a.env before (differing before after) record.before ∧
    Holds a.env after (differing before after) record.after

/-- An edit that commits is recorded. -/
def RecordsUpdate (r : LedgerRun) (e : LedgerEvent) : Prop :=
  ∀ i a found dto before after, e = .advance i → r.sessions.find? i = some ⟨a, some found⟩ →
    a.operation = .update dto → r.ledger.assets.find? a.assetId = some before →
    (r.step e).ledger.assets.find? a.assetId = some after →
    ∃ added, (r.step e).ledger.assetChanges = r.ledger.assetChanges ++ added ∧
      IsRecorded a before after added

def AssetTransfer.origin (t : AssetTransfer) : Option Nat × Option Nat :=
  (t.fromDepartmentId, t.fromUserId)

def AssetTransfer.target (t : AssetTransfer) : Option Nat × Option Nat :=
  (some t.toDepartmentId, some t.toUserId)

def Asset.place (a : Asset) : Option Nat × Option Nat := (a.departmentId, a.responsibleUserId)

def transfersOf (l : Ledger) (id : Nat) : List AssetTransfer :=
  l.assetTransfers.filter fun t => t.assetId == id

/-- The hand-overs of an asset lead from one to the next, and to where it is. -/
structure Chained (transfers : List AssetTransfer) (a : Asset) : Prop where
  links : transfers.IsChain fun t u => u.origin = t.target
  last : ∀ t ∈ transfers.getLast?, t.target = a.place

def TransfersChained (l : Ledger) : Prop :=
  ∀ id a, l.assets.find? id = some a → Chained (transfersOf l id) a

structure RecordLaw (r : LedgerRun) (e : LedgerEvent) : Prop where
  changes : RecordsUpdate r e
  transfers : TransfersChained (r.step e).ledger

/-! ## When it holds -/

/-- A field that is compared: where the texts agree, the row has the stated value; where they do
not, it has the value that was found, and not the stated one. -/
def isTold (env : FixedEnvironment) (dto : AssetUpdateDto) (found row : Asset)
    (f : BusinessField) : Bool :=
  if plainText (f.json env found) = plainText (f.submitted dto) then f.isStated env dto row
  else f.same found row && !f.isStated env dto row

/-- A commit whose records tell what happens: an edit tells every field that it compares and
leaves the others, and a hand-over finds the asset where it is, or is its first. -/
def isTelling (l : Ledger) (a : LedgerActivity) (found : Found) (row : Asset) : Bool :=
  match a.operation with
  | .update dto =>
      (BusinessField.tracked.all fun f => isTold a.env dto found.existing row f) &&
        BusinessField.untracked.all fun f => f.isStated a.env dto row
  | .schedule _ => (transfersOf l a.assetId).isEmpty || found.existing.place == row.place
  | .scrap => true

def isTellingStep (r : LedgerRun) : LedgerEvent → Bool
  | .advance i =>
      match r.sessions.find? i with
      | some ⟨a, some found⟩ =>
          (r.ledger.assets.find? a.assetId).all fun row => isTelling r.ledger a found row
      | _ => true
  | _ => true

/-! ## Edits -/

variable {a : LedgerActivity}

section Edits

variable {env : FixedEnvironment} {dto : AssetUpdateDto} {found row : Asset} {f : BusinessField}
  {category user : Option String}

def textsDiffer (env : FixedEnvironment) (dto : AssetUpdateDto) (found : Asset)
    (f : BusinessField) : Bool :=
  plainText (f.json env found) ≠ plainText (f.submitted dto)

theorem changedFields_eq : changedFields env found dto =
    (BusinessField.tracked.filter (textsDiffer env dto found)).map fun f =>
      (f.key, f.json env found, f.submitted dto) := by
  show (BusinessField.tracked.map fun f => (f.key, f.json env found, f.submitted dto)).filter _ = _
  rw [List.filter_map]
  rfl

theorem same_writeOver :
    f.same row (dto.writeOver env category user row) = f.isStated env dto row := by
  cases f <;> rfl

theorem json_eq_of_same {a b : Asset} (h : f.same a b = true) : f.json env a = f.json env b := by
  cases f <;> simp only [BusinessField.same, beq_iff_eq] at h <;>
    simp only [BusinessField.json, h]

theorem says_submitted (hf : f ∈ BusinessField.tracked) :
    f.Says env (dto.writeOver env category user row) (f.submitted dto) := by
  cases f with
  | amount => exact .inr ⟨rfl, dto.amount, rfl, rfl⟩
  | name => exact .inl rfl
  | specModel => exact .inl rfl
  | usageStatus => exact .inl rfl
  | currentUserId => exact .inl rfl
  | remark => exact .inl rfl
  | _ => simp [BusinessField.tracked] at hf

theorem isTold_iff : isTold env dto found row f = true ↔
    (textsDiffer env dto found f = !f.isStated env dto row) ∧
      (textsDiffer env dto found f = true → f.same found row = true) := by
  unfold isTold
  by_cases htexts : plainText (f.json env found) = plainText (f.submitted dto)
  · simp [textsDiffer, htexts]
  · simp [textsDiffer, htexts, and_comm]

theorem differing_eq (htold : ∀ f ∈ BusinessField.tracked, isTold env dto found row f = true)
    (hleft : ∀ f ∈ BusinessField.untracked, f.isStated env dto row = true) :
    differing row (dto.writeOver env category user row) =
      BusinessField.tracked.filter (textsDiffer env dto found) := by
  have huntracked : (BusinessField.untracked.filter fun f =>
      !f.same row (dto.writeOver env category user row)) = [] := by
    refine List.filter_eq_nil_iff.mpr fun f hf => ?_
    rw [same_writeOver, hleft f hf]
    decide
  unfold differing
  rw [List.filter_append, huntracked, List.append_nil]
  refine List.filter_congr fun f hf => ?_
  rw [same_writeOver]
  exact (isTold_iff.mp (htold f hf)).1.symm

theorem holds_map {a : Asset} {fields : List BusinessField} {value : BusinessField → Json}
    (h : ∀ f ∈ fields, f.Says env a (value f)) :
    Holds env a fields (.obj (fields.map fun f => (f.key, value f))) := by
  refine ⟨_, rfl, ?_⟩
  rw [List.forall₂_map_right_iff, List.forall₂_same]
  exact fun f hf => ⟨rfl, h f hf⟩

theorem isRecorded_update {names : Found} (hop : a.operation = .update dto)
    (htold : ∀ f ∈ BusinessField.tracked, isTold a.env dto names.existing row f = true)
    (hleft : ∀ f ∈ BusinessField.untracked, f.isStated a.env dto row = true) :
    IsRecorded a row (a.write names row) (a.changes names) := by
  have hwrite : a.write names row =
      dto.writeOver a.env names.categoryName names.currentUserName row := by
    rw [LedgerActivity.write, hop]
  have hfields : differing row
      (dto.writeOver a.env names.categoryName names.currentUserName row) =
        BusinessField.tracked.filter (textsDiffer a.env dto names.existing) :=
    differing_eq htold hleft
  have hchanges : a.changes names =
      if (changedFields a.env names.existing dto).isEmpty then []
      else [changeRecord a.operator a.assetId (changedFields a.env names.existing dto)] := by
    rw [LedgerActivity.changes, hop]
  rw [hwrite, hchanges, changedFields_eq, ← hfields]
  constructor
  · intro hnone
    simp [hnone]
  · intro hsome
    have hnonempty : ((differing row (dto.writeOver a.env names.categoryName
        names.currentUserName row)).map fun f =>
          (f.key, f.json a.env names.existing, f.submitted dto)).isEmpty = false := by
      simpa using hsome
    rw [hnonempty]
    refine ⟨_, rfl, rfl, rfl, ?_, ?_⟩
    · show Holds _ _ _ (.obj (List.map _ (List.map _ _)))
      rw [List.map_map]
      refine holds_map fun f hf => .inl ?_
      rw [hfields, List.mem_filter] at hf
      exact json_eq_of_same ((isTold_iff.mp (htold f hf.1)).2 hf.2)
    · show Holds _ _ _ (.obj (List.map _ (List.map _ _)))
      rw [List.map_map]
      refine holds_map fun f hf => ?_
      rw [hfields, List.mem_filter] at hf
      exact says_submitted hf.1

end Edits

section HandOvers

variable {l : Ledger} {a : LedgerActivity} {found : Found} {row : Asset}

theorem Chained.append {transfers : List AssetTransfer} {x y : Asset} {t : AssetTransfer}
    (h : Chained transfers x) (horigin : transfers = [] ∨ t.origin = x.place)
    (htarget : t.target = y.place) : Chained (transfers ++ [t]) y where
  links := by
    refine h.links.append (.singleton t) fun u hu v hv => ?_
    obtain rfl := Option.some.inj hv
    rcases horigin with hempty | horigin
    · subst hempty
      cases hu
    · exact horigin.trans (h.last u hu).symm
  last u hu := by
    rw [List.getLast?_append_of_ne_nil _ (List.cons_ne_nil t [])] at hu
    obtain rfl := Option.some.inj hu
    exact htarget

theorem transfersOf_commit (id : Nat) : transfersOf (a.commit found l) id =
    transfersOf l id ++ (a.transfers found).filter fun t => t.assetId == id :=
  List.filter_append _ _

theorem transfersOf_commit_ne {id : Nat} (h : id ≠ a.assetId) :
    transfersOf (a.commit found l) id = transfersOf l id := by
  rw [transfersOf_commit]
  unfold LedgerActivity.transfers
  cases a.operation with
  | schedule dto => simp [AssetScheduleDto.transfer, Ne.symm h]
  | update dto => simp
  | scrap => simp

theorem TransfersChained.commit (h : TransfersChained l)
    (hrow : l.assets.find? a.assetId = some row) (htell : isTelling l a found row = true) :
    TransfersChained (a.commit found l) := by
  intro id x hx
  have hx : (l.assets.update a.assetId (a.write found)).find? id = some x := hx
  by_cases hid : id = a.assetId
  · subst hid
    rw [Table.find?_update_of_find? hrow] at hx
    obtain rfl := Option.some.inj hx
    have hchain := h _ row hrow
    rw [transfersOf_commit]
    unfold LedgerActivity.transfers LedgerActivity.write
    cases hop : a.operation with
    | update dto =>
        simp only [List.filter_nil, List.append_nil]
        exact ⟨hchain.links, hchain.last⟩
    | scrap =>
        simp only [List.filter_nil, List.append_nil]
        exact ⟨hchain.links, hchain.last⟩
    | schedule dto =>
        have horigin : transfersOf l a.assetId = [] ∨ found.existing.place = row.place := by
          simpa [isTelling, hop] using htell
        have hown : [dto.transfer a.env a.operator a.assetId found.existing].filter
            (fun t => t.assetId == a.assetId) =
              [dto.transfer a.env a.operator a.assetId found.existing] := by
          simp [AssetScheduleDto.transfer]
        simp only [hown]
        exact hchain.append horigin rfl
  · rw [Table.find?_update_ne _ _ hid] at hx
    rw [transfersOf_commit_ne hid]
    exact h id x hx

end HandOvers

section Runs

variable {r : LedgerRun} {e : LedgerEvent}

theorem ledger_step (r : LedgerRun) (e : LedgerEvent) : (r.step e).ledger = r.ledger ∨
    ∃ i a found row, e = .advance i ∧ r.sessions.find? i = some ⟨a, some found⟩ ∧
      r.ledger.assets.find? a.assetId = some row ∧
      (r.step e).ledger = a.commit found r.ledger := by
  cases e with
  | start i a =>
      left
      unfold LedgerRun.step
      dsimp only
      split <;> rfl
  | abort i => exact .inl rfl
  | advance i =>
      cases hsession : r.sessions.find? i with
      | none =>
          left
          simp only [LedgerRun.step, hsession]
      | some session =>
          obtain ⟨a, found⟩ := session
          cases found with
          | none =>
              left
              simp only [LedgerRun.step, hsession]
              split <;> rfl
          | some found =>
              cases hrow : r.ledger.assets.find? a.assetId with
              | none =>
                  left
                  simp only [LedgerRun.step, hsession, hrow]
                  rfl
              | some row =>
                  refine .inr ⟨i, a, found, row, rfl, hsession, hrow, ?_⟩
                  simp only [LedgerRun.step, hsession, hrow]
                  rfl

theorem isTelling_of_step {i : Nat} {found : Found} {row : Asset}
    (he : isTellingStep r (.advance i) = true)
    (hsession : r.sessions.find? i = some ⟨a, some found⟩)
    (hrow : r.ledger.assets.find? a.assetId = some row) :
    isTelling r.ledger a found row = true := by
  simpa [isTellingStep, hsession, hrow] using he

theorem recordsUpdate_step (he : isTellingStep r e = true) : RecordsUpdate r e := by
  intro i a found dto before after hadvance hsession hop hbefore hafter
  subst hadvance
  have htell := isTelling_of_step he hsession hbefore
  simp only [isTelling, hop, Bool.and_eq_true, List.all_eq_true] at htell
  have hledger : (r.step (.advance i)).ledger = a.commit found r.ledger := by
    unfold LedgerRun.step
    simp only [hsession, hbefore]
    rfl
  rw [hledger] at hafter ⊢
  have hafter : (r.ledger.assets.update a.assetId (a.write found)).find? a.assetId = some after :=
    hafter
  rw [Table.find?_update_of_find? hbefore] at hafter
  obtain rfl := Option.some.inj hafter
  exact ⟨_, rfl, isRecorded_update hop htell.1 htell.2⟩

theorem transfersChained_step (h : TransfersChained r.ledger) (he : isTellingStep r e = true) :
    TransfersChained (r.step e).ledger := by
  rcases ledger_step r e with hsame | ⟨i, a, found, row, hadvance, hsession, hrow, hcommit⟩
  · rw [hsame]
    exact h
  · subst hadvance
    rw [hcommit]
    exact h.commit hrow (isTelling_of_step he hsession hrow)

/-- Along a run whose commits find what they write over, and whose edits tell every field, the
records tell what happens. -/
theorem recordLaw_of_run (l : Ledger) (es : List LedgerEvent) (hl : TransfersChained l)
    (hes : Along LedgerRun.step (fun r e => isTellingStep r e = true) (.opened l) es) :
    Along LedgerRun.step RecordLaw (.opened l) es :=
  hes.strengthen (I := fun r => TransfersChained r.ledger) hl
    (fun _ _ h he => transfersChained_step h he)
    fun _ _ h he => ⟨recordsUpdate_step he, transfersChained_step h he⟩

end Runs

/-! ## A lathe -/

def lathe : Asset where
  name := "lathe"
  categoryId := none
  categoryName := none
  specModel := none
  amount := 1250
  purchaseAt := none
  usageStatus := .idle
  ownership := .partner
  ownerName := some "Lin"
  departmentId := some 1
  departmentName := some "workshop"
  responsibleUserId := none
  responsibleUserName := none
  currentUserId := none
  currentUserName := none
  imageOssKey := none
  remark := none
  deletedAt := none

def latheLedger : Ledger := ⟨Table.empty.insert 1 lathe, [], []⟩

theorem transfersChained_lathe : TransfersChained latheLedger :=
  fun _ _ _ => ⟨.nil, fun _ ht => nomatch ht⟩

def workshop : FixedEnvironment where
  now := 0
  access _ := ⟨true, true, "asset", true, some .company⟩
  closureOfUser _ := []
  category _ := none
  department _ := some "workshop"
  userAccount _ := some ⟨"Wu", true⟩
  belongs _ _ := true
  decimal t := if t = "12.5" ∨ t = "12.50" then 1250 else 0
  decimalText x := if x = 1250 then "12.5" else "0"
  time _ := 0
  date _ := 0

def latheDto : AssetUpdateDto where
  name := "lathe"
  categoryId := none
  specModel := none
  amount := "12.5"
  purchaseAt := none
  ownership := .partner
  ownerName := some "Lin"
  currentUserId := none
  imageOssKey := none
  remark := none
  usageStatus := .idle

def onLathe (operation : LedgerOperation) : LedgerActivity :=
  ⟨workshop, ⟨1, "operator", []⟩, 1, 1, operation⟩

theorem continues_transaction_scrap :
    Continues (onLathe .scrap).transaction ((onLathe .scrap).look latheLedger.assets)
      (fun found s' => s'.toLedger = (onLathe .scrap).commit found latheLedger) 0
      { FixedStore.empty with assets := latheLedger.assets } :=
  continues_transaction (onLathe .scrap) ⟨Table.below_empty 0, Table.below_empty 0⟩

def alone (i : Nat) (operation : LedgerOperation) : List LedgerEvent :=
  [.start i (onLathe operation), .advance i, .advance i]

/-- The lathe gets another name while it is handed over, and is handed over once more. -/
theorem recordLaw_lathe :
    Along LedgerRun.step RecordLaw (.opened latheLedger)
      (.start 0 (onLathe (.update { latheDto with name := "old lathe" })) :: .advance 0 ::
        alone 1 (.schedule ⟨1, 7⟩) ++ [.advance 0] ++ alone 0 (.schedule ⟨2, 8⟩)) :=
  recordLaw_of_run latheLedger _ transfersChained_lathe (by decide +kernel)

/-- The lathe gets another owner, and nothing is recorded. -/
theorem not_recordLaw_lathe :
    ¬ Along LedgerRun.step RecordLaw (.opened latheLedger)
      (alone 0 (.update { latheDto with ownerName := some "Wu" })) := by
  intro h
  have hlaw := h.2.2.1.changes 0 _ ⟨lathe, none, none⟩ _ lathe { lathe with ownerName := some "Wu" }
    rfl rfl rfl rfl rfl
  obtain ⟨added, hadded, hrecorded⟩ := hlaw
  obtain ⟨record, hrecord, -⟩ := hrecorded.one (by decide)
  rw [hrecord] at hadded
  cases hadded

end Wbme.FixedAsset

import Wbme.Asset.Preservation.Core

/-! # Stock-in and stock-change requests keep the invariant

The approval of a stock-in books its lines one after another; the lines have
distinct keys, so the rows locked before the loop are still current when their
line is booked. The lines of a stock change are owed from the moment the head is
closed, and each issue or release takes its line from what is owed.
-/

namespace Wbme.Asset

open Lib Approval

variable {k : Slack} {n : Nat} {s : Store}

/-! ## Reserved lines -/

def reservedBy (lines : List ReservedLine) : Nat → Int := sumOn (·.inventoryItemId) (·.qty) lines

@[simp] theorem reservedBy_nil (i : Nat) : reservedBy [] i = 0 := rfl

theorem reservedBy_cons (line : ReservedLine) (lines : List ReservedLine) :
    reservedBy (line :: lines) = bump (reservedBy lines) line.inventoryItemId line.qty :=
  sumOn_cons _ _ line lines

theorem add_reservedBy_cons (u : Nat → Int) (line : ReservedLine) (lines : List ReservedLine) :
    (fun i => u i + reservedBy (line :: lines) i) =
      bump (fun i => u i + reservedBy lines i) line.inventoryItemId line.qty := by
  rw [reservedBy_cons, add_bump]

def LinesDistinct (lines : List ReservedLine) : Prop :=
  (∀ line ∈ lines, 0 < line.qty) ∧ (lines.map (·.inventoryItemId)).Nodup

variable {lines : List ReservedLine} {line : ReservedLine}

theorem LinesDistinct.head (h : LinesDistinct (line :: lines)) :
    0 < line.qty ∧ ∀ l ∈ lines, l.inventoryItemId ≠ line.inventoryItemId := by
  refine ⟨h.1 line List.mem_cons_self, fun l hl he => ?_⟩
  have hn := h.2
  rw [List.map_cons, List.nodup_cons] at hn
  exact hn.1 (he ▸ List.mem_map_of_mem hl)

theorem LinesDistinct.tail (h : LinesDistinct (line :: lines)) : LinesDistinct lines := by
  have hn := h.2
  rw [List.map_cons, List.nodup_cons] at hn
  exact ⟨fun l hl => h.1 l (List.mem_cons_of_mem _ hl), hn.2⟩

theorem nodup_map_select {α β : Type} {t : Table α} {p : Nat → α → Bool} {g : Nat × α → β}
    (h : ∀ j l j' l', t.find? j = some l → t.find? j' = some l' → p j l = true → p j' l' = true →
      g (j, l) = g (j', l') → j = j') : ((t.select p).map g).Nodup := by
  refine List.pairwise_map.mpr (List.Pairwise.imp_of_mem ?_ (Table.select_pairwise t p))
  intro a b ha hb hlt he
  obtain ⟨hfa, hpa⟩ := Table.mem_select.mp ha
  obtain ⟨hfb, hpb⟩ := Table.mem_select.mp hb
  exact absurd (h _ _ _ _ hfa hfb hpa hpb he) (Nat.ne_of_lt hlt)

theorem linesDistinct_changes (h : Inv k n s) (id : Nat) :
    LinesDistinct (StockChangeService.linesOf s id) := by
  constructor
  · intro line hline
    obtain ⟨p, hp, rfl⟩ := List.mem_map.mp hline
    exact (h.lines.change _ _ (Table.mem_select.mp hp).1).1
  · rw [StockChangeService.linesOf, List.map_map]
    refine nodup_map_select fun j l j' l' hj hj' hp hp' he => ?_
    simp only [beq_iff_eq] at hp hp'
    exact h.lines.change_unique j l j' l' hj hj' (hp.trans hp'.symm) he

theorem headLineQty_change {id i : Nat} {row : ApprovalRequest} (h : Inv k n s)
    (hid : s.approvalRequests.find? id = some row) (ht : row.requestType = .stockChange) :
    headLineQty s.stockChangeItems s.consumableRequestItems id i =
      reservedBy (StockChangeService.linesOf s id) i := by
  have hclaim : s.consumableRequestItems.sumBy (·.inventoryItemId)
      (fun l => if l.requestId = id then l.qty else 0) i = 0 :=
    Table.sumBy_eq_zero fun j l hl _ => by
      obtain ⟨-, r, hr, htypes⟩ := h.lines.claim j l hl
      refine if_neg fun he => ?_
      rw [he, hid, Option.some.injEq] at hr
      subst hr
      rw [ht] at htypes
      revert htypes
      decide
  have hsum : reservedBy (StockChangeService.linesOf s id) = s.stockChangeItems.sumBy
      (·.inventoryItemId) (fun l => if l.requestId = id then l.qty else 0) :=
    Table.sumOn_select s.stockChangeItems (fun p => ReservedLine.mk p.2.inventoryItemId p.2.qty)
      ReservedLine.inventoryItemId ReservedLine.qty StockChangeItem.requestId
      StockChangeItem.inventoryItemId StockChangeItem.qty (fun _ => rfl) (fun _ => rfl) id
  rw [headLineQty, hclaim, Int.add_zero, hsum]

/-! ## Releasing -/

theorem pendingLineQty_nonneg (h : Inv k n s) (i : Nat) :
    0 ≤ pendingLineQty s.approvalRequests s.stockChangeItems s.consumableRequestItems i := by
  have hheld : ∀ id (q : Int), 0 < q → 0 ≤ heldQty s.approvalRequests id q := by
    intro id q hq
    unfold heldQty
    split <;> omega
  have hchange := Table.sumBy_nonneg (g := (·.inventoryItemId))
    (fun j l hl => hheld l.requestId l.qty (h.lines.change j l hl).1) i
  have hclaim := Table.sumBy_nonneg (g := (·.inventoryItemId))
    (fun j l hl => hheld l.requestId l.qty (h.lines.claim j l hl).1) i
  exact Int.add_nonneg hchange hclaim

def Lowered (items items' : Table InventoryItem) (lines : List ReservedLine) : Prop :=
  ∀ j, items'.find? j = (items.find? j).map
    (fun r => { r with reservedQty := r.reservedQty - reservedBy lines j })

theorem Lowered.nil (items : Table InventoryItem) : Lowered items items [] := fun j => by
  cases items.find? j <;> simp

theorem Lowered.cons {items items' : Table InventoryItem} {line : ReservedLine}
    {lines : List ReservedLine}
    (h : Lowered (items.update line.inventoryItemId
      (fun r => { r with reservedQty := r.reservedQty - line.qty })) items' lines) :
    Lowered items items' (line :: lines) := fun j => by
  rw [h j, Table.find?_update, reservedBy_cons]
  cases items.find? j with
  | none => rfl
  | some r =>
      by_cases hj : j = line.inventoryItemId
      · subst hj
        have hsum : r.reservedQty - line.qty - reservedBy lines line.inventoryItemId =
            r.reservedQty - (reservedBy lines line.inventoryItemId + line.qty) := by omega
        simp only [Option.map_some, if_true, bump_self, hsum]
      · simp only [Option.map_some, if_neg hj, bump_ne _ _ hj]

theorem inventoryItemRelease_wp {E : Failure → Prop} {i : Nat} {qty : Int}
    (h : Inv { k with owed := bump k.owed i qty } n s) (hq : 0 < qty) (hk : 0 ≤ k.owed i) :
    (inventoryItemRelease i qty).wp
      (fun _ n' s' => Inv k n' s' ∧ n' = n ∧ s' =
        { s with
          inventoryItems := s.inventoryItems.update i
            (fun r => { r with reservedQty := r.reservedQty - qty }) }) E n s := by
  have hres : reservedOf s.inventoryItems i = pendingLineQty s.approvalRequests
      s.stockChangeItems s.consumableRequestItems i + (k.owed i + qty) := by
    rw [h.reserve i]
    exact congrArg _ (bump_self _ _ _)
  have hpending := pendingLineQty_nonneg h i
  rw [inventoryItemRelease, Txn.wp_act]
  cases hr : s.inventoryItems.find? i with
  | none =>
      rw [reservedOf, Table.valueAt_of_find?_none hr] at hres
      omega
  | some r =>
      rw [reservedOf, Table.valueAt_of_find? hr] at hres
      have hquantities := h.stock.quantities i r hr
      have hle : qty ≤ r.reservedQty := by omega
      have hok : ({ r with reservedQty := r.reservedQty - qty } : InventoryItem).quantitiesOk =
          true := quantitiesOk_iff.mpr ⟨by dsimp only; omega, by dsimp only; omega⟩
      simp only [hle, hok, if_true]
      refine ⟨?_, trivial, trivial⟩
      have hstep := h.updateItem hr (x := 0) (y := -qty) (e := k.exempt)
        (f := fun r => { r with reservedQty := r.reservedQty - qty }) (by simp) rfl rfl hok
        (fun j _ hx => hx) (fun hb _ _ => by dsimp only at hb; omega)
      simpa only [bump_bump, Int.add_right_neg, Int.neg_zero, bump_zero] using hstep

theorem releaseLines_wp {E : Failure → Prop} {lines : List ReservedLine}
    (h : Inv { k with owed := fun i => k.owed i + reservedBy lines i } n s)
    (hq : ∀ line ∈ lines, 0 < line.qty) (hk : ∀ i, 0 ≤ k.owed i) :
    (releaseLines lines).wp
      (fun _ n' s' => Inv k n' s' ∧ n' = n ∧ ∃ items, s' = { s with inventoryItems := items } ∧
        Lowered s.inventoryItems items lines) E n s := by
  unfold releaseLines
  induction lines generalizing n s with
  | nil => exact ⟨by simpa using h, rfl, s.inventoryItems, rfl, .nil _⟩
  | cons line lines ih =>
      rw [Txn.wp_forM_cons]
      rw [add_reservedBy_cons] at h
      have hrest : 0 ≤ reservedBy lines line.inventoryItemId :=
        sumOn_nonneg (fun l hl => Int.le_of_lt (hq l (List.mem_cons_of_mem _ hl))) _
      have hk' := hk line.inventoryItemId
      refine Txn.wp_mono (inventoryItemRelease_wp
        (k := { k with owed := fun i => k.owed i + reservedBy lines i }) h
        (hq line List.mem_cons_self) (by dsimp only; omega)) ?_
      rintro - n₁ s₁ ⟨hinv, rfl, rfl⟩
      refine Txn.wp_mono (ih hinv fun l hl => hq l (List.mem_cons_of_mem _ hl)) ?_
      rintro - n₂ s₂ ⟨hdone, rfl, items, rfl, hlow⟩
      exact ⟨hdone, rfl, items, rfl, hlow.cons⟩

/-! ## Reserving and heads -/

theorem reserveItem_safe {i : Nat} {qty : Int} (h : Inv k n s) (hq : 0 < qty) :
    (reserveItem i qty).safe (fun _ n' s' => Inv { k with owed := bump k.owed i qty } n' s' ∧
      ∃ items, s' = { s with inventoryItems := items }) n s := by
  refine inventoryItemUpdate_safe fun r hr hok => ⟨?_, _, rfl⟩
  have hres := (h.stock.quantities i r hr).1
  have hstep := h.updateItem hr (x := 0) (y := qty) (e := k.exempt)
    (f := fun r => { r with reservedQty := r.reservedQty + qty }) (by simp) rfl rfl hok
    (fun j _ hx => hx) (fun _ hzero _ => by dsimp only at hzero; omega)
  simpa only [Int.neg_zero, bump_zero] using hstep

theorem reserveLines_safe {β : Type} {g : β → ReservedLine} {lines : List β} (h : Inv k n s)
    (hq : ∀ l ∈ lines, 0 < (g l).qty) :
    (lines.forM fun l => reserveItem (g l).inventoryItemId (g l).qty).safe
      (fun _ n' s' => Inv { k with owed := fun i => k.owed i + reservedBy (lines.map g) i } n' s' ∧
        ∃ items, s' = { s with inventoryItems := items }) n s := by
  induction lines generalizing k n s with
  | nil => exact ⟨by simpa using h, s.inventoryItems, rfl⟩
  | cons l lines ih =>
      rw [Txn.safe, Txn.wp_forM_cons]
      refine Txn.wp_mono (reserveItem_safe h (hq l List.mem_cons_self)) ?_
      rintro - n₁ s₁ ⟨hinv, items, rfl⟩
      refine Txn.wp_mono (ih hinv fun l' hl => hq l' (List.mem_cons_of_mem _ hl)) ?_
      rintro - n₂ s₂ ⟨hdone, items', rfl⟩
      refine ⟨?_, items', rfl⟩
      rw [List.map_cons, add_reservedBy_cons]
      refine (congrArg (fun u => Inv { k with owed := u } n₂ _) ?_).mp hdone
      funext i
      simp only [bump]
      split <;> omega

variable (env : Environment)

theorem createRequestHead_safe (input : CreateRequestHeadInput) (h : Inv k n s) :
    (createRequestHead env input).safe
      (fun head n' s' => Inv k n' s' ∧ PendingHead s' head.1 [input.requestType] ∧
        ∃ requests actions,
          s' = { s with approvalRequests := requests, approvalActions := actions }) n s := by
  unfold createRequestHead
  rw [Txn.safe, Txn.wp_bind]
  refine Txn.safe_guard fun _ => ?_
  dsimp only
  rw [Txn.wp_bind]
  refine create_safe fun _ => ?_
  rw [Txn.wp_bind]
  refine approvalActionCreate_safe ?_
  refine ⟨(h.insertHead _).insertAction _, ⟨_, Table.find?_insert_self _ _ _, ?_, rfl⟩, _, _, rfl⟩
  exact List.mem_singleton.mpr rfl

/-! ## Stock change -/

variable {exempt : Nat → Prop} {head : SideHead}

namespace StockChangeService

def reservation (line : StockChangeLine) : ReservedLine := ⟨line.inventoryItemId, line.qty⟩

theorem prepareLine_safe (locked : List InventoryItemLockRow) (item : StockChangeRequestItem) :
    (prepareLine env locked item).safe
      (fun line n' s' => n' = n ∧ s' = s ∧ 0 < (reservation line).qty) n s := by
  unfold prepareLine
  rw [Txn.safe, Txn.wp_bind]
  refine Txn.safe_orThrow fun row _ => ?_
  rw [Txn.wp_bind]
  refine Txn.safe_guard fun _ => ?_
  rw [Txn.wp_bind]
  have hq := item.qty_pos
  unfold loadDictName
  split
  · split
    · exact ⟨rfl, rfl, by dsimp only [reservation]; omega⟩
    · trivial
  · trivial

theorem createLines_safe {requestId : Nat} {changedAt : Int} {lines : List StockChangeLine}
    (h : Inv { k with owed := fun i => k.owed i + reservedBy (lines.map reservation) i } n s)
    (hhead : PendingHead s requestId [.stockChange]) :
    (lines.forM fun line => do
      let _ ← stockChangeItemCreate
        { requestId, inventoryItemId := line.inventoryItemId, snapshot := line.snapshot,
          changeTypeId := line.changeTypeId, changeTypeName := line.changeTypeName,
          reason := line.reason, qty := line.qty, changedAt }).safe (fun _ => Inv k) n s := by
  induction lines generalizing n s with
  | nil => simpa using h
  | cons line lines ih =>
      rw [Txn.safe, Txn.wp_forM_cons, Txn.wp_bind]
      refine stockChangeItemCreate_safe fun hq hnew => ih ?_ hhead
      rw [List.map_cons, add_reservedBy_cons] at h
      have hstep := h.insertChangeLine hq hhead hnew
      simpa only [reservation, bump_bump, Int.add_right_neg, bump_zero] using hstep

theorem submit_safe (operator : Operator) (dto : StockChangeRequestCreate)
    (h : Inv (.exempting exempt) n s) :
    (submit env operator dto).safe (fun _ => Inv (.exempting exempt)) n s := by
  unfold submit
  dsimp only
  rw [Txn.safe, Txn.wp_bind]
  refine Txn.safe_guard fun _ => ?_
  rw [Txn.wp_bind, lockInventoryItems, Txn.wp_queryForUpdate, Txn.wp_bind]
  refine Txn.safe_guard fun _ => ?_
  rw [Txn.wp_bind]
  refine Txn.wp_mono (Txn.wp_mapM (fun _ done n' s' => n' = n ∧ s' = s ∧
    ∀ line ∈ done, 0 < (reservation line).qty) ?_ ⟨rfl, rfl, by simp⟩) ?_
  · rintro item rest done n' s' ⟨rfl, rfl, hdone⟩
    refine Txn.wp_mono (prepareLine_safe env _ item) ?_
    rintro line n' s' ⟨rfl, rfl, hline⟩
    refine ⟨rfl, rfl, fun l hl => ?_⟩
    rcases List.mem_append.mp hl with hl | hl
    · exact hdone l hl
    · obtain rfl := List.mem_singleton.mp hl
      exact hline
  · rintro lines n' s' ⟨rfl, rfl, hlines⟩
    rw [Txn.wp_bind]
    refine Txn.wp_mono (reserveLines_safe (g := reservation) h hlines) ?_
    rintro - n₁ s₁ ⟨hinv₁, -⟩
    rw [Txn.wp_bind]
    refine Txn.wp_mono (createRequestHead_safe env _ hinv₁) ?_
    rintro head n₂ s₂ ⟨hinv₂, hhead, -⟩
    rw [Txn.wp_bind]
    exact Txn.wp_mono (createLines_safe hinv₂ hhead) fun _ n₃ s₃ hinv₃ => hinv₃

theorem issueLines_safe {exempt : Nat → Prop} {kind : IssueKind} {refId : Nat}
    {locked : List InventoryItemLockRow} {lines : List ReservedLine}
    (h : Inv { Slack.exempting exempt with owed := reservedBy lines } n s)
    (hlines : LinesDistinct lines)
    (hlocked : ∀ line ∈ lines, CurrentBook s locked line.inventoryItemId)
    (htype : kind.flowType ≠ .stockIn) :
    (lines.forM fun line => do
      let _ ← issueLine kind refId locked line
      cleanupEmptyItem line.inventoryItemId).safe (fun _ => Inv (.exempting exempt)) n s := by
  induction lines generalizing n s with
  | nil => exact h
  | cons line lines ih =>
      rw [Txn.safe, Txn.wp_forM_cons, Txn.wp_bind]
      rw [reservedBy_cons] at h
      refine Txn.wp_mono (issueLine_safe
        (k := { Slack.exempting exempt with owed := reservedBy lines }) h hlines.head.1 rfl
        (hlocked line List.mem_cons_self) htype) ?_
      rintro ⟨row, as⟩ n₁ s₁ hissued
      refine Txn.wp_mono (cleanupEmptyItem_wp hissued.inv) ?_
      rintro - n₂ s₂ ⟨hinv, -, hsame⟩
      refine ih hinv hlines.tail fun l hl => ?_
      have hne := hlines.head.2 l hl
      exact (hlocked l (List.mem_cons_of_mem _ hl)).of_same
        ((hsame _ hne).trans (hissued.same _ hne))

theorem applyApproved_safe
    (h : Inv { Slack.exempting exempt with owed := reservedBy (linesOf s head.id) } n s) :
    (applyApproved head).safe (fun _ => Inv (.exempting exempt)) n s := by
  unfold applyApproved
  rw [Txn.safe, Txn.wp_bind, Txn.wp_query, Txn.wp_bind, lockInventoryItems,
    Txn.wp_queryForUpdate]
  exact issueLines_safe h (linesDistinct_changes h head.id)
    (fun line _ => currentBook_lockRows s _ _) (by simp [issueKind])

theorem applyRelease_wp {E : Failure → Prop}
    (h : Inv { Slack.exempting exempt with owed := reservedBy (linesOf s head.id) } n s) :
    (applyRelease head).wp
      (fun _ n' s' => Inv (.exempting exempt) n' s' ∧ n' = n ∧
        ∃ items, s' = { s with inventoryItems := items } ∧
          Lowered s.inventoryItems items (linesOf s head.id)) E n s := by
  unfold applyRelease
  rw [Txn.wp_bind, Txn.wp_query]
  refine releaseLines_wp (k := .exempting exempt) ?_ (linesDistinct_changes h head.id).1
    fun i => Int.le_refl 0
  simpa [Slack.exempting] using h

end StockChangeService

/-! ## Stock in -/

theorem readOnly_loadDictName (dictId : Nat) (dictType : AssetDictType) :
    (loadDictName env dictId dictType).ReadOnly := by
  unfold loadDictName
  split
  · split
    · exact Txn.readOnly_pure _
    · exact Txn.readOnly_throw _
  · exact Txn.readOnly_throw _

theorem readOnly_loadDictOption (env : Environment) (dictId : Option Nat)
    (dictType : AssetDictType) : (loadDictOption env dictId dictType).ReadOnly := by
  cases dictId with
  | none => exact Txn.readOnly_pure _
  | some id => exact (readOnly_loadDictName env id dictType).bind fun _ => Txn.readOnly_pure _

theorem readOnly_prepareStockInLine (env : Environment) (seen : List (Nat × String × Nat))
    (item : StockInRequestItem) : (prepareStockInLine env seen item).ReadOnly := by
  unfold prepareStockInLine
  refine (Txn.readOnly_guard _ _).bind fun _ => (Txn.readOnly_query _).bind fun c => ?_
  cases c with
  | none => exact Txn.readOnly_throw _
  | some c =>
      exact (Txn.readOnly_guard _ _).bind fun _ => (Txn.readOnly_orThrow _ _).bind fun _ =>
        (readOnly_loadDictOption env _ _).bind fun _ =>
          (readOnly_loadDictOption env _ _).bind fun _ => Txn.readOnly_pure _

theorem readOnly_prepareStockInLines (env : Environment) (items : List StockInRequestItem)
    (seen : List (Nat × String × Nat)) : (prepareStockInLines env items seen).ReadOnly := by
  induction items generalizing seen with
  | nil => exact Txn.readOnly_pure _
  | cons item items ih =>
      exact (readOnly_prepareStockInLine env seen item).bind fun _ =>
        (ih _).bind fun _ => Txn.readOnly_pure _

namespace StockInService

theorem submit_safe (operator : Operator) (dto : StockInRequestCreate)
    (h : Inv (.exempting exempt) n s) :
    (submit env operator dto).safe (fun _ => Inv (.exempting exempt)) n s := by
  unfold submit
  rw [Txn.safe, Txn.wp_bind]
  refine (readOnly_prepareStockInLines env dto.items []).safe fun lines => ?_
  rw [Txn.wp_bind]
  refine Txn.wp_mono (createRequestHead_safe env _ h) ?_
  rintro head n₁ s₁ ⟨hinv, hhead, -⟩
  rw [Txn.wp_bind]
  refine Txn.wp_mono (Txn.wp_forM (fun _ n' s' => Inv (.exempting exempt) n' s' ∧
    PendingHead s' head.1 [.stockIn]) ?_ ⟨hinv, hhead⟩) fun _ n' s' hdone => hdone.1
  rintro line rest n' s' ⟨hinv', hhead'⟩
  rw [Txn.wp_bind]
  exact stockInItemCreate_safe fun hq hnew =>
    ⟨hinv'.insertStockInLine hq hhead'.headOfType hnew, hhead'⟩

def keyOf (line : StockInItem) : ItemKey :=
  ⟨line.consumableId, line.snapshot.spec, some line.warehouseId, line.snapshot.warehouseName,
    line.snapshot.warehousePath⟩

variable {locked : List InventoryItemLockRow} {existing : List (Nat × InventoryItem)}
  {line : StockInItem}

variable {r : InventoryItem} {processorId : Nat}

theorem sameKey_iff : sameKey r line = true ↔ r.HasKey (keyOf line) := by
  simp [sameKey, InventoryItem.HasKey, keyOf, and_assoc]

def LineCurrent (s : Store) (existing : List (Nat × InventoryItem))
    (locked : List InventoryItemLockRow) (line : StockInItem) : Prop :=
  ∀ row, (existing.find? (fun p => sameKey p.2 line)).bind (fun p => lockedById locked p.1) =
    some row → OnKey s (keyOf line) (row.id, row.bookQty)

theorem itemOfLine_safe (h : Inv k n s) (hcurrent : LineCurrent s existing locked line) :
    (itemOfLine existing locked line).safe
      (fun target n' s' => OnKey s' (keyOf line) target ∧ FoundOrCreated k s target.1 n' s')
      n s := by
  unfold itemOfLine
  split
  · exact ⟨hcurrent _ ‹_›, .inl ⟨rfl, h⟩⟩
  · exact lockOrCreateItem_safe h (keyOf line)

theorem applyLine_safe (h : Inv (.exempting exempt) n s) (hq : 0 < line.qty)
    (hcurrent : LineCurrent s existing locked line) :
    (applyLine head processorId existing locked line).safe
      (fun _ n' s' => Inv (.exempting exempt) n' s' ∧
        ∀ j r, s.inventoryItems.find? j = some r → ¬ r.HasKey (keyOf line) →
          s'.inventoryItems.find? j = some r) n s := by
  unfold applyLine
  rw [Txn.safe, Txn.wp_bind]
  refine Txn.wp_mono (itemOfLine_safe h hcurrent) ?_
  rintro ⟨i, book⟩ n₁ s₁ ⟨⟨r, hr, hkey, hbook⟩, hfound⟩
  dsimp only at hr hbook hfound ⊢
  rw [Txn.wp_bind]
  refine batchCreate_safe fun h0 => ?_
  have hinv₂ := hfound.inv.insertBatch (w :=
    { inventoryItemId := i, sourceBatchId := none, consumableId := line.consumableId,
      snapshot := line.snapshot, purchase := line.purchase, remark := none,
      receivedAt := line.receivedAt, remainingQty := line.qty, updatedBy := none }) h0
  rw [Txn.wp_bind]
  refine inventoryItemUpdate_safe fun r' hr' hok => ?_
  obtain rfl : r = r' := by simpa [hr] using hr'
  have hinv₃ := hinv₂.updateItem hr (x := line.qty) (y := 0) (e := exempt)
    (f := fun r => { r with bookQty := r.bookQty + line.qty }) rfl (by simp) rfl hok
    (fun j hj hx => (hx.resolve_left hj)) (fun hb _ _ => by
      have := hfound.inv.stock.quantities i r hr
      dsimp only at hb
      omega)
  rw [Txn.wp_bind]
  refine stockFlowCreate_safe fun hpos => ?_
  have hinv₄ := hinv₃.insertFlow (b := n₁)
    (w :=
      { flowType := .stockIn, direction := .in, inventoryItemId := i, batchId := some n₁,
        snapshot := line.snapshot, qty := line.qty, bookBefore := book,
        bookAfter := book + line.qty, refType := "STOCK_IN", refId := head.id,
        operatorId := processorId, operatorName := head.processorName.getD approvalSystemName })
    hpos (fun _ => rfl) rfl
    (by
      dsimp only
      rw [bookOf_update hr (x := line.qty) rfl, bump_self, bump_self, bookOf,
        Table.valueAt_of_find? hr, hbook]
      dsimp only [Slack.exempting]
      omega)
    rfl
  simp only [StockFlow.change, bump_bump, Int.add_left_neg, bump_zero] at hinv₄
  refine ⟨hinv₄.weaken (fun _ hx => hx) (fun _ => Int.le_refl _)
    (fun b hb => hb.2.resolve_left hb.1), fun j r' hj hother => ?_⟩
  have hne : j ≠ i := by
    rintro rfl
    obtain rfl : r = r' := by simpa [hr] using (hfound.keeps hj)
    exact hother hkey
  dsimp only
  rw [Table.find?_update_ne _ _ hne]
  exact hfound.keeps hj

/-- Do two lines ask for the same consumable, specification and warehouse? -/
def SameLineKey (a b : Nat × StockInItem) : Prop :=
  a.2.consumableId = b.2.consumableId ∧ a.2.snapshot.spec = b.2.snapshot.spec ∧
    a.2.warehouseId = b.2.warehouseId

theorem sameLineKey_of_hasKey {a b : Nat × StockInItem} (ha : r.HasKey (keyOf a.2))
    (hb : r.HasKey (keyOf b.2)) : SameLineKey a b :=
  ⟨ha.1.symm.trans hb.1, ha.2.1.symm.trans hb.2.1, by
    have hw := ha.2.2.symm.trans hb.2.2
    simpa [keyOf] using hw⟩

structure LinesCurrent (s : Store) (existing : List (Nat × InventoryItem))
    (locked : List InventoryItemLockRow) (lines : List (Nat × StockInItem)) : Prop where
  positive : ∀ line ∈ lines, 0 < line.2.qty
  distinct : lines.Pairwise (fun a b => ¬ SameLineKey a b)
  current : ∀ line ∈ lines, LineCurrent s existing locked line.2

theorem linesCurrent_linesOf (h : Inv k n s) (id : Nat)
    (hlocked : ∀ i row, lockedById locked i = some row →
      ∃ r, s.inventoryItems.find? i = some r ∧ lockRow s i r = some row) :
    LinesCurrent s (existingItems s (linesOf s id)) locked (linesOf s id) where
  positive := fun line hline => (h.lines.stockIn _ _ (Table.mem_select.mp hline).1).1
  distinct := by
    refine List.Pairwise.imp_of_mem ?_ (Table.select_pairwise _ _)
    rintro a b ha hb hlt ⟨h₁, h₂, h₃⟩
    obtain ⟨hfa, hpa⟩ := Table.mem_select.mp ha
    obtain ⟨hfb, hpb⟩ := Table.mem_select.mp hb
    simp only [beq_iff_eq] at hpa hpb
    have he := h.lines.stockIn_unique _ _ _ _ hfa hfb (hpa.trans hpb.symm) h₁ h₂ h₃
    omega
  current := fun line _ row hrow => by
    obtain ⟨p, hp, hrow⟩ := Option.bind_eq_some_iff.mp hrow
    have hkey : p.2.HasKey (keyOf line.2) := sameKey_iff.mp (by simpa using List.find?_some hp)
    have hfind := (Table.mem_select.mp (List.mem_of_find?_eq_some hp)).1
    obtain ⟨r, hr, hlock⟩ := hlocked p.1 row hrow
    obtain ⟨hid, -, -, -, hbook, -⟩ := lockRow_eq_some hlock
    obtain rfl : p.2 = r := by simpa [hfind] using hr
    exact ⟨p.2, by rw [hid, hfind], hkey, hbook⟩

theorem LinesCurrent.tail {s' : Store} {line : Nat × StockInItem} {lines : List (Nat × StockInItem)}
    (h : LinesCurrent s existing locked (line :: lines))
    (hkeep : ∀ j r, s.inventoryItems.find? j = some r → ¬ r.HasKey (keyOf line.2) →
      s'.inventoryItems.find? j = some r) : LinesCurrent s' existing locked lines where
  positive := fun l hl => h.positive l (List.mem_cons_of_mem _ hl)
  distinct := (List.pairwise_cons.mp h.distinct).2
  current := fun l hl row hrow => by
    obtain ⟨r, hr, hkey, hbook⟩ := h.current l (List.mem_cons_of_mem _ hl) row hrow
    refine ⟨r, hkeep _ r hr fun hline => ?_, hkey, hbook⟩
    exact (List.pairwise_cons.mp h.distinct).1 l hl (sameLineKey_of_hasKey hline hkey)

theorem applyApproved_safe (h : Inv (.exempting exempt) n s) :
    (applyApproved head processorId).safe (fun _ => Inv (.exempting exempt)) n s := by
  have hloop : ∀ existing locked lines, LinesCurrent s existing locked lines →
      (lines.forM fun line => applyLine head processorId existing locked line.2).safe
        (fun _ => Inv (.exempting exempt)) n s := by
    intro existing locked lines hlines
    refine Txn.wp_mono (Txn.wp_forM (fun rest n' s' => Inv (.exempting exempt) n' s' ∧
      LinesCurrent s' existing locked rest) ?_ ⟨h, hlines⟩) fun _ n' s' hdone => hdone.1
    rintro line rest n' s' ⟨hinv, hcurrent⟩
    refine Txn.wp_mono (applyLine_safe hinv (hcurrent.positive line List.mem_cons_self)
      (hcurrent.current line List.mem_cons_self)) ?_
    rintro - n'' s'' ⟨hinv', hkeep⟩
    exact ⟨hinv', hcurrent.tail hkeep⟩
  unfold applyApproved
  rw [Txn.safe, Txn.wp_bind, Txn.wp_query]
  split
  · exact h
  · rw [Txn.wp_bind, Txn.wp_query]
    dsimp only
    split
    · exact hloop _ _ _ (linesCurrent_linesOf h head.id fun i row hrow => by
        simp [lockedById] at hrow)
    · exact hloop _ _ _ (linesCurrent_linesOf h head.id fun i row hrow =>
        lockedById_lockRows hrow)

end StockInService

end Wbme.Asset

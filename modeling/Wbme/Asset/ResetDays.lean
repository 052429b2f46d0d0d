import Wbme.Asset.Claims
import Wbme.Asset.QuotaCycles
import Wbme.Lib.Along

/-! # Changes of the reset day

The cycle that runs when the reset day is changed is to end where it would have ended. But a
claim is booked under the key that the present day gives: after a change the running cycle may
have another key, so that what was claimed before is forgotten, or what belongs to an earlier
cycle counts again.
-/

namespace Wbme.Asset

open Lib ClaimService

structure ResetDay where
  day : Nat
  pos : 1 ≤ day
  le : day ≤ 28
deriving DecidableEq

/-- What the settings accept. -/
def ResetDay.ofValue? (value : Int) : Option ResetDay :=
  if h : 1 ≤ value ∧ value ≤ 28 then some ⟨value.toNat, by omega, by omega⟩ else none

/-- A user and a disposable consumable with its quota, and the begin of the first cycle with the
day that is set then. -/
structure QuotaTerms where
  userId : Nat
  consumableId : Nat
  cycle : QuotaCycle
  limit : Nat
  opened : Int
  firstDay : ResetDay

namespace QuotaTerms

def config (t : QuotaTerms) : QuotaConfig := ⟨.disposable, some t.cycle, some t.limit, none, none⟩

def cycleKey (t : QuotaTerms) (now : Int) (resetDay : ResetDay) : String :=
  computeCycleKey now t.cycle resetDay.day

/-- What a claim asks for, at the instant and under the day that it reads. -/
def check (t : QuotaTerms) (now : Int) (resetDay : ResetDay) (lines : List ClaimLine) :
    QuotaCheck where
  key := ⟨t.userId, t.consumableId, some (t.cycleKey now resetDay)⟩
  config := t.config
  claimed := (lines.map (·.qty)).sum

theorem quotaCheckOf_eq (t : QuotaTerms) (env : Environment) (resetDay : ResetDay)
    (line : ClaimLine) (c : Consumable) (hday : env.quotaResetDay = resetDay.day)
    (hline : line.consumableId = t.consumableId)
    (hc : (⟨c.type, c.quotaCycle, c.quotaLimit, c.returnDays, c.maxHolding⟩ : QuotaConfig) =
      t.config) : quotaCheckOf env t.userId line c = t.check env.now resetDay [line] := by
  obtain ⟨htype, hcycle, -⟩ := QuotaConfig.mk.inj hc
  unfold quotaCheckOf check cycleKey
  rw [hc, htype, hcycle, hline, hday]
  simp

end QuotaTerms

structure PendingClaim where
  submittedAt : Int
  lines : List ClaimLine
  check : QuotaCheck

/-- The store, with the history of the day and the instants of the claims. -/
structure QuotaOffice where
  now : Int
  resetDay : ResetDay
  changes : List (Int × ResetDay)
  store : Store
  submittedAt : Nat → Int
  sequence : Nat
  claims : Table PendingClaim

inductive QuotaEvent where
  | pass (ms : Nat)
  | changeResetDay (value : Int)
  /-- A claim reads the time and the day; its lines are of the consumable. -/
  | startClaim (i : Nat) (lines : List ClaimLine)
  /-- Under the lock of its key a claim is checked and booked; `passes` are its other checks. -/
  | commitClaim (i : Nat) (passes : Bool)
  | settle (requestId : Nat) (approved : Bool)

namespace QuotaOffice

def endClaim (o : QuotaOffice) (i : Nat) : QuotaOffice :=
  { o with claims := o.claims.deleteMany fun j _ => j == i }

def book (t : QuotaTerms) (o : QuotaOffice) (claim : PendingClaim) : QuotaOffice :=
  { o with
    store := { o.store with
      quotaOccupations := o.store.quotaOccupations.insert o.sequence
        (quotaRow t.userId o.sequence claim.lines claim.check) }
    submittedAt := fun id => if id = o.sequence then claim.submittedAt else o.submittedAt id
    sequence := o.sequence + 1 }

def settle (o : QuotaOffice) (requestId : Nat) (status : QuotaStatus) : QuotaOffice :=
  { o with store := { o.store with
      quotaOccupations := o.store.quotaOccupations.updateMany
        (fun id _ => (reservedQuotas o.store requestId).contains id)
        fun q => { q with status := status } } }

def step (t : QuotaTerms) (o : QuotaOffice) : QuotaEvent → QuotaOffice
  | .pass ms => { o with now := o.now + ms }
  | .changeResetDay value =>
      match ResetDay.ofValue? value with
      | none => o
      | some day => { o with resetDay := day, changes := o.changes ++ [(o.now, day)] }
  | .startClaim i lines =>
      if (o.claims.find? i).isSome then o
      else { o with claims := o.claims.insert i ⟨o.now, lines, t.check o.now o.resetDay lines⟩ }
  | .commitClaim i passes =>
      match o.claims.find? i with
      | none => o
      | some claim =>
          if passes && quotaFits o.store t.userId claim.check && decide (0 < claim.check.claimed)
          then (o.book t claim).endClaim i
          else o.endClaim i
  | .settle requestId approved => o.settle requestId (if approved then .consumed else .released)

def opened (t : QuotaTerms) : QuotaOffice where
  now := t.opened
  resetDay := t.firstDay
  changes := []
  store := .empty
  submittedAt := fun _ => t.opened
  sequence := 1
  claims := .empty

end QuotaOffice

/-! ## Cycles in force -/

def dayAt (t : QuotaTerms) (changes : List (Int × ResetDay)) (instant : Int) : ResetDay :=
  (((changes.filter fun c => c.1 < instant).getLast?).map (·.2)).getD t.firstDay

structure IsNextBoundary (cycle : QuotaCycle) (resetDay : ResetDay) (first next : Int) :
    Prop where
  after : first < next
  boundary : IsResetBoundary cycle resetDay.day next
  none : ∀ instant, first < instant → instant < next →
    ¬ IsResetBoundary cycle resetDay.day instant

/-- Two consecutive boundaries: a cycle ends by the day that was set when it began. -/
inductive InForce (t : QuotaTerms) (changes : List (Int × ResetDay)) : Int → Int → Prop where
  | first {next : Int} (h : IsNextBoundary t.cycle (dayAt t changes t.opened) t.opened next) :
      InForce t changes t.opened next
  | next {first next after : Int} (h : InForce t changes first next)
      (hnext : IsNextBoundary t.cycle (dayAt t changes next) next after) :
      InForce t changes next after

/-! ## What is promised -/

def countsAgainst (q : QuotaOccupation) : Bool := q.status == .reserved || q.status == .consumed

/-- What is reserved or consumed of the claims between two instants. -/
def claimedBetween (t : QuotaTerms) (o : QuotaOffice) (first next : Int) : Int :=
  o.store.quotaOccupations.total fun id q =>
    if q.userId = t.userId ∧ q.consumableId = t.consumableId ∧ countsAgainst q = true ∧
      first ≤ o.submittedAt id ∧ o.submittedAt id < next then q.qty else 0

/-- What may still be claimed. -/
def room (t : QuotaTerms) (o : QuotaOffice) : Int :=
  t.limit - usedQuota o.store t.userId t.consumableId (t.cycleKey o.now o.resetDay)

structure QuotaLaw (t : QuotaTerms) (o : QuotaOffice) (e : QuotaEvent) : Prop where
  limit : ∀ first next, InForce t (o.step t e).changes first next →
    claimedBetween t (o.step t e) first next ≤ t.limit
  room : ∀ value, e = .changeResetDay value → room t o ≤ room t (o.step t e)

/-! ## When it holds -/

/-- A claim starts where the present day gives the key of the running cycle, and a change keeps
the key of its instant or comes to one under which nothing counts. -/
def KeepsKey (t : QuotaTerms) (o : QuotaOffice) : QuotaEvent → Prop
  | .startClaim _ _ => ∀ first next, InForce t o.changes first next → first ≤ o.now →
      o.now < next → t.cycleKey o.now o.resetDay = t.cycleKey o.now (dayAt t o.changes first)
  | .changeResetDay value => ∀ day, ResetDay.ofValue? value = some day →
      t.cycleKey o.now day = t.cycleKey o.now o.resetDay ∨
        usedQuota o.store t.userId t.consumableId (t.cycleKey o.now day) = 0
  | _ => True

section Cycles

variable {t : QuotaTerms} {changes : List (Int × ResetDay)} {first next instant now : Int}
  {day : ResetDay}

theorem InForce.isNextBoundary (h : InForce t changes first next) :
    IsNextBoundary t.cycle (dayAt t changes first) first next := by
  cases h with
  | first h => exact h
  | next _ h => exact h

theorem cycleKey_of_isNextBoundary (h : IsNextBoundary t.cycle day first next)
    (hle : first ≤ instant) (hlt : instant < next) :
    t.cycleKey instant day = t.cycleKey first day := by
  refine ((computeCycleKey_eq_iff_of_le day.pos day.le hle).mpr
    fun boundary hafter hupto => ?_).symm
  exact h.none boundary hafter (by omega)

theorem dayAt_append (h : instant ≤ now) :
    dayAt t (changes ++ [(now, day)]) instant = dayAt t changes instant := by
  have hnone : [(now, day)].filter (fun c => decide (c.1 < instant)) = [] := by
    simp
    omega
  unfold dayAt
  rw [List.filter_append, hnone, List.append_nil]

theorem InForce.of_append (h : InForce t (changes ++ [(now, day)]) first next)
    (hopened : t.opened ≤ now) (hle : first ≤ now) : InForce t changes first next := by
  induction h with
  | first h =>
      rw [dayAt_append hopened] at h
      exact .first h
  | next hbefore h ih =>
      rw [dayAt_append hle] at h
      have hafter := hbefore.isNextBoundary.after
      exact .next (ih (by omega)) h

end Cycles

/-! ## What is booked -/

structure Booked (t : QuotaTerms) (now : Int) (changes : List (Int × ResetDay))
    (submittedAt : Int) (key : QuotaKey) : Prop where
  before : submittedAt ≤ now
  key : ∃ cycleKey, key = ⟨t.userId, t.consumableId, some cycleKey⟩ ∧
    ∀ first next, InForce t changes first next → first ≤ submittedAt → submittedAt < next →
      cycleKey = t.cycleKey first (dayAt t changes first)

structure OfficeSound (t : QuotaTerms) (o : QuotaOffice) : Prop where
  below : o.store.quotaOccupations.Below o.sequence
  opened : t.opened ≤ o.now
  rows : ∀ id q, o.store.quotaOccupations.find? id = some q → 0 ≤ q.qty ∧
    Booked t o.now o.changes (o.submittedAt id) ⟨q.userId, q.consumableId, q.cycleKey⟩
  claims : ∀ i c, o.claims.find? i = some c →
    Booked t o.now o.changes c.submittedAt c.check.key ∧ c.check.config = t.config
  limit : ∀ cycleKey, usedQuota o.store t.userId t.consumableId cycleKey ≤ t.limit

section Sound

variable {t : QuotaTerms} {o : QuotaOffice} {at' : Int} {key : QuotaKey}

theorem Booked.pass (h : Booked t o.now o.changes at' key) (ms : Nat) :
    Booked t (o.now + ms) o.changes at' key := ⟨by have := h.before; omega, h.key⟩

theorem Booked.change (h : Booked t o.now o.changes at' key) (hopened : t.opened ≤ o.now)
    (day : ResetDay) : Booked t o.now (o.changes ++ [(o.now, day)]) at' key where
  before := h.before
  key := by
    obtain ⟨cycleKey, hkey, hcycle⟩ := h.key
    refine ⟨cycleKey, hkey, fun first next hforce hle hlt => ?_⟩
    have hfirst : first ≤ o.now := Int.le_trans hle h.before
    rw [dayAt_append hfirst]
    exact hcycle first next (hforce.of_append hopened hfirst) hle hlt

theorem OfficeSound.claimedBetween_le (h : OfficeSound t o) {first next : Int}
    (hforce : InForce t o.changes first next) : claimedBetween t o first next ≤ t.limit := by
  refine Int.le_trans (Table.total_le_total fun id q hq => ?_)
    (h.limit (t.cycleKey first (dayAt t o.changes first)))
  obtain ⟨hqty, hbooked⟩ := h.rows id q hq
  obtain ⟨cycleKey, hkey, hcycle⟩ := hbooked.key
  split
  · rename_i hcounted
    obtain ⟨huser, hconsumable, hcounts, hle, hlt⟩ := hcounted
    have hsame := hcycle first next hforce hle hlt
    have hstatus : q.status = .reserved ∨ q.status = .consumed := by
      simpa [countsAgainst] using hcounts
    have hcycleKey : q.cycleKey = some (t.cycleKey first (dayAt t o.changes first)) := by
      rw [← hsame]
      exact (QuotaKey.mk.inj hkey).2.2
    rw [if_pos ⟨huser, hconsumable, hcycleKey, hstatus⟩]
  · split
    · exact hqty
    · exact Int.le_refl 0

theorem OfficeSound.pass (h : OfficeSound t o) (ms : Nat) :
    OfficeSound t { o with now := o.now + ms } where
  below := h.below
  opened := by
    have := h.opened
    show t.opened ≤ o.now + ms
    omega
  rows id q hq := ⟨(h.rows id q hq).1, (h.rows id q hq).2.pass ms⟩
  claims i c hc := ⟨(h.claims i c hc).1.pass ms, (h.claims i c hc).2⟩
  limit := h.limit

theorem OfficeSound.change (h : OfficeSound t o) (day : ResetDay) :
    OfficeSound t { o with resetDay := day, changes := o.changes ++ [(o.now, day)] } where
  below := h.below
  opened := h.opened
  rows id q hq := ⟨(h.rows id q hq).1, (h.rows id q hq).2.change h.opened day⟩
  claims i c hc := ⟨(h.claims i c hc).1.change h.opened day, (h.claims i c hc).2⟩
  limit := h.limit

theorem OfficeSound.setClaims (h : OfficeSound t o) {claims : Table PendingClaim}
    (hclaims : ∀ i c, claims.find? i = some c →
      Booked t o.now o.changes c.submittedAt c.check.key ∧ c.check.config = t.config) :
    OfficeSound t { o with claims := claims } :=
  ⟨h.below, h.opened, h.rows, hclaims, h.limit⟩

theorem OfficeSound.endClaim (h : OfficeSound t o) (i : Nat) : OfficeSound t (o.endClaim i) := by
  refine h.setClaims fun j c hc => ?_
  rw [Table.find?_deleteMany] at hc
  obtain ⟨c', hc', hif⟩ := Option.bind_eq_some_iff.mp hc
  split at hif
  · cases hif
  · obtain rfl := Option.some.inj hif
    exact h.claims j c' hc'

theorem OfficeSound.startClaim (h : OfficeSound t o) {i : Nat} {lines : List ClaimLine}
    (hkeeps : KeepsKey t o (.startClaim i lines)) :
    OfficeSound t { o with
      claims := o.claims.insert i ⟨o.now, lines, t.check o.now o.resetDay lines⟩ } := by
  refine h.setClaims fun j c hc => ?_
  rw [Table.find?_insert] at hc
  split at hc
  · obtain rfl := Option.some.inj hc
    refine ⟨⟨Int.le_refl _, _, rfl, fun first next hforce hle hlt => ?_⟩, rfl⟩
    exact (hkeeps first next hforce hle hlt).trans
      (cycleKey_of_isNextBoundary hforce.isNextBoundary hle hlt)
  · exact h.claims j c hc

variable {check : QuotaCheck}

theorem quotaRow_of_config (h : check.config = t.config) (requestId : Nat)
    (lines : List ClaimLine) : ∃ name, quotaRow t.userId requestId lines check =
      ⟨t.userId, check.key.consumableId, name, .disposableCycle, some t.cycle, check.key.cycleKey,
        requestId, check.claimed, .reserved⟩ := by
  unfold quotaRow
  rw [h]
  exact ⟨_, rfl⟩

theorem quotaFits_of_config {cycleKey : String} {s : Store} (h : check.config = t.config)
    (hkey : check.key = ⟨t.userId, t.consumableId, some cycleKey⟩)
    (hfits : quotaFits s t.userId check = true) :
    usedQuota s t.userId t.consumableId cycleKey + check.claimed ≤ t.limit := by
  unfold quotaFits at hfits
  rw [h, hkey] at hfits
  exact of_decide_eq_true hfits

theorem OfficeSound.book (h : OfficeSound t o) {claim : PendingClaim}
    (hclaim : Booked t o.now o.changes claim.submittedAt claim.check.key)
    (hconfig : claim.check.config = t.config) (hpos : 0 < claim.check.claimed)
    (hfits : quotaFits o.store t.userId claim.check = true) :
    OfficeSound t (o.book t claim) := by
  obtain ⟨cycleKey, hkey, hcycle⟩ := hclaim.key
  obtain ⟨name, hrow⟩ := quotaRow_of_config hconfig o.sequence claim.lines
  have hlimit := quotaFits_of_config hconfig hkey hfits
  have hfree := h.below.find?_none (Nat.le_refl _)
  refine ⟨h.below.insert_succ _, h.opened, fun id q hq => ?_, h.claims, fun other => ?_⟩
  · have hq : (o.store.quotaOccupations.insert o.sequence
        (quotaRow t.userId o.sequence claim.lines claim.check)).find? id = some q := hq
    rw [Table.find?_insert] at hq
    show _ ∧ Booked t o.now o.changes (if id = o.sequence then claim.submittedAt
      else o.submittedAt id) _
    split at hq
    · rename_i hid
      obtain rfl := Option.some.inj hq
      rw [if_pos hid, hrow, hkey]
      exact ⟨Int.le_of_lt hpos, hkey ▸ hclaim⟩
    · rename_i hid
      rw [if_neg hid]
      exact h.rows id q hq
  · show (o.store.quotaOccupations.insert o.sequence
      (quotaRow t.userId o.sequence claim.lines claim.check)).total _ ≤ _
    rw [Table.total_insert hfree, hrow, hkey]
    have hother := h.limit other
    unfold usedQuota at hlimit hother
    by_cases hsame : cycleKey = other
    · subst hsame
      simpa using hlimit
    · simpa [hsame] using hother

theorem status_of_reservedQuotas {s : Store} {requestId id : Nat} {q : QuotaOccupation}
    (hq : s.quotaOccupations.find? id = some q)
    (h : (reservedQuotas s requestId).contains id = true) : q.status = .reserved := by
  obtain ⟨⟨k, q'⟩, hmem, rfl⟩ := List.mem_map.mp (List.contains_iff_mem.mp h)
  obtain ⟨hq', hreserved⟩ := Table.mem_select.mp hmem
  obtain rfl := Option.some.inj (hq.symm.trans hq')
  simp only [Bool.and_eq_true, beq_iff_eq] at hreserved
  exact hreserved.2

theorem OfficeSound.usedQuota_nonneg (h : OfficeSound t o) (cycleKey : String) :
    0 ≤ usedQuota o.store t.userId t.consumableId cycleKey := by
  refine Table.total_nonneg fun id q hq => ?_
  split
  · exact (h.rows id q hq).1
  · exact Int.le_refl 0

theorem OfficeSound.settle (h : OfficeSound t o) (requestId : Nat) (status : QuotaStatus) :
    OfficeSound t (o.settle requestId status) := by
  refine ⟨h.below.alter _, h.opened, fun id q' hq' => ?_, h.claims, fun cycleKey => ?_⟩
  · have hq' : (o.store.quotaOccupations.updateMany
        (fun id _ => (reservedQuotas o.store requestId).contains id)
        fun q => { q with status := status }).find? id = some q' := hq'
    rw [Table.find?_updateMany] at hq'
    obtain ⟨q, hq, rfl⟩ := Option.map_eq_some_iff.mp hq'
    have hrow := h.rows id q hq
    split
    · exact hrow
    · exact hrow
  · refine Int.le_trans ?_ (h.limit cycleKey)
    unfold usedQuota QuotaOffice.settle
    rw [Table.total_updateMany]
    refine Table.total_le_total fun id q hq => ?_
    have hqty := (h.rows id q hq).1
    by_cases hmem : (reservedQuotas o.store requestId).contains id = true
    · have hreserved := status_of_reservedQuotas hq hmem
      rw [if_pos hmem]
      split
      · rename_i hafter
        rw [if_pos ⟨hafter.1, hafter.2.1, hafter.2.2.1, .inl hreserved⟩]
      · split
        · exact hqty
        · exact Int.le_refl 0
    · rw [if_neg hmem]

/-! ## Runs -/

theorem OfficeSound.step (h : OfficeSound t o) {e : QuotaEvent} (he : KeepsKey t o e) :
    OfficeSound t (o.step t e) := by
  cases e with
  | pass ms => exact h.pass ms
  | changeResetDay value =>
      show OfficeSound t (match ResetDay.ofValue? value with
        | none => o
        | some day => { o with resetDay := day, changes := o.changes ++ [(o.now, day)] })
      cases ResetDay.ofValue? value with
      | none => exact h
      | some day => exact h.change day
  | startClaim i lines =>
      show OfficeSound t (if (o.claims.find? i).isSome then o
        else { o with claims := o.claims.insert i ⟨o.now, lines, t.check o.now o.resetDay lines⟩ })
      split
      · exact h
      · exact h.startClaim he
  | commitClaim i passes =>
      show OfficeSound t (match o.claims.find? i with
        | none => o
        | some claim =>
            if passes && quotaFits o.store t.userId claim.check && decide (0 < claim.check.claimed)
            then (o.book t claim).endClaim i
            else o.endClaim i)
      cases hclaim : o.claims.find? i with
      | none => exact h
      | some claim =>
          dsimp only
          split
          · rename_i hok
            simp only [Bool.and_eq_true, decide_eq_true_eq] at hok
            obtain ⟨hbooked, hconfig⟩ := h.claims i claim hclaim
            exact (h.book hbooked hconfig hok.2 hok.1.2).endClaim i
          · exact h.endClaim i
  | settle requestId approved => exact h.settle requestId _

theorem officeSound_opened (t : QuotaTerms) : OfficeSound t (.opened t) where
  below := Table.below_empty 1
  opened := Int.le_refl _
  rows _ _ h := nomatch h
  claims _ _ h := nomatch h
  limit _ := Int.natCast_nonneg t.limit

theorem OfficeSound.room_le (h : OfficeSound t o) {value : Int}
    (he : KeepsKey t o (.changeResetDay value)) :
    room t o ≤ room t (o.step t (.changeResetDay value)) := by
  show _ ≤ room t (match ResetDay.ofValue? value with
    | none => o
    | some day => { o with resetDay := day, changes := o.changes ++ [(o.now, day)] })
  cases hday : ResetDay.ofValue? value with
  | none => exact Int.le_refl _
  | some day =>
      show (t.limit : Int) - usedQuota o.store t.userId t.consumableId
          (t.cycleKey o.now o.resetDay) ≤
        t.limit - usedQuota o.store t.userId t.consumableId (t.cycleKey o.now day)
      rcases he day hday with hsame | hnothing
      · rw [hsame]
      · rw [hnothing]
        have hused := h.usedQuota_nonneg (t.cycleKey o.now o.resetDay)
        omega

/-- Along a run whose claims and changes keep the keys, no cycle in force gets more than its
limit, and no change takes room. -/
theorem quotaLaw_of_run (t : QuotaTerms) (es : List QuotaEvent)
    (hes : Along (QuotaOffice.step t) (KeepsKey t) (.opened t) es) :
    Along (QuotaOffice.step t) (QuotaLaw t) (.opened t) es :=
  hes.strengthen (officeSound_opened t) (fun _ _ h he => h.step he) fun _ _ h he =>
    ⟨fun _ _ hforce => (h.step he).claimedBetween_le hforce, fun _ heq => by
      subst heq
      exact h.room_le he⟩

end Sound

/-! ## A change in July -/

/-- Every day that was ever set gives an instant the same key. -/
def isKept (t : QuotaTerms) (o : QuotaOffice) : QuotaEvent → Bool
  | .startClaim _ _ => (t.firstDay :: o.changes.map (·.2)).all fun day =>
      t.cycleKey o.now o.resetDay == t.cycleKey o.now day
  | .changeResetDay value => (ResetDay.ofValue? value).all fun day =>
      t.cycleKey o.now day == t.cycleKey o.now o.resetDay
  | _ => true

theorem dayAt_mem (t : QuotaTerms) (changes : List (Int × ResetDay)) (instant : Int) :
    dayAt t changes instant ∈ t.firstDay :: changes.map (·.2) := by
  unfold dayAt
  cases hlast : (changes.filter fun c => decide (c.1 < instant)).getLast? with
  | none => exact List.mem_cons_self
  | some c =>
      have hmem := (List.mem_filter.mp (List.mem_of_getLast? hlast)).1
      exact List.mem_cons_of_mem _ (List.mem_map_of_mem hmem)

theorem keepsKey_of_isKept {t : QuotaTerms} {o : QuotaOffice} {e : QuotaEvent}
    (h : isKept t o e = true) : KeepsKey t o e := by
  cases e with
  | startClaim i lines =>
      intro first next _ _ _
      exact beq_iff_eq.mp (List.all_eq_true.mp h _ (dayAt_mem t o.changes first))
  | changeResetDay value =>
      intro day hday
      refine .inl (beq_iff_eq.mp ?_)
      simpa [isKept, hday] using h
  | _ => trivial

/-- July of 2026 begins, and five may be claimed in a month. -/
def julyTerms : QuotaTerms := ⟨1, 1, .month, 5, 1782835200000, ⟨1, by decide, by decide⟩⟩

def julyLine (qty : Int) : ClaimLine := ⟨1, 1, ⟨"gloves", "M", "store", "store"⟩, qty, none⟩

def claimOf (qty : Int) : List QuotaEvent :=
  [.startClaim 0 [julyLine qty], .commitClaim 0 true, .settle 1 true]

def days (n : Nat) : QuotaEvent := .pass (n * 86400000)

/-- The day is changed on 20 July, when both days give the key of July. -/
theorem quotaLaw_july :
    Along (QuotaOffice.step julyTerms) (QuotaLaw julyTerms) (.opened julyTerms)
      (days 9 :: claimOf 3 ++ days 10 :: .changeResetDay 15 :: days 5 :: claimOf 2 ++
        days 22 :: claimOf 4) :=
  quotaLaw_of_run julyTerms _
    ((show Along (QuotaOffice.step julyTerms) (fun o e => isKept julyTerms o e = true)
      (.opened julyTerms) _ by decide +kernel).imp fun _ _ => keepsKey_of_isKept)

theorem inForce_july (changes : List (Int × ResetDay))
    (h : dayAt julyTerms changes julyTerms.opened = julyTerms.firstDay) :
    InForce julyTerms changes 1782835200000 1785513600000 := by
  refine .first ?_
  rw [h]
  refine ⟨by decide, ⟨by decide, by decide, by decide⟩, fun instant hafter hbefore => ?_⟩
  have hsame : computeCycleKey 1782835200000 .month 1 = computeCycleKey 1785513599999 .month 1 := by
    decide +kernel
  exact (computeCycleKey_eq_iff_of_le (by decide) (by decide) (by decide)).mp hsame instant
    hafter (by omega)

/-- Five are claimed on 10 July, the day is changed, and five more are claimed. -/
theorem not_quotaLaw_july :
    ¬ Along (QuotaOffice.step julyTerms) (QuotaLaw julyTerms) (.opened julyTerms)
      ([days 9, .startClaim 0 [julyLine 5], .commitClaim 0 true, .changeResetDay 15,
        .startClaim 0 [julyLine 5]] ++ [.commitClaim 0 true]) := by
  intro h
  have hlimit := h.at_split.limit 1782835200000 1785513600000 (inForce_july _ (by decide +kernel))
  have hclaimed : claimedBetween julyTerms ([days 9, .startClaim 0 [julyLine 5],
      .commitClaim 0 true, .changeResetDay 15, .startClaim 0 [julyLine 5],
      .commitClaim 0 true].foldl (QuotaOffice.step julyTerms) (.opened julyTerms))
      1782835200000 1785513600000 = 10 := by
    decide +kernel
  have hle : (10 : Int) ≤ 5 := hclaimed ▸ hlimit
  omega

end Wbme.Asset

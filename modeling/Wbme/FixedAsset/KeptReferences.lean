import Wbme.FixedAsset.Catalog
import Wbme.IdempotencyReplay

/-! # Saving an asset as it is

An edit looks up again what the asset refers to. A disabled category and a closed account are
kept by the asset that has them, and what is looked up never moves to another place. But a
category may be deleted, and the asset that names it cannot be saved any more.
-/

namespace Wbme.FixedAsset

open Lib AssetService

/-! ## What is promised -/

/-- An edit that states what the asset has. -/
structure OwnValues (env : FixedEnvironment) (a : Asset) (dto : AssetUpdateDto) : Prop where
  name : dto.name = a.name
  categoryId : dto.categoryId = a.categoryId
  specModel : dto.specModel = a.specModel
  amount : env.decimal dto.amount = a.amount
  purchaseAt : dto.purchaseAt.map env.date = a.purchaseAt
  ownership : dto.ownership = a.ownership
  ownerName : dto.ownerName = a.ownerName
  currentUserId : dto.currentUserId = a.currentUserId
  imageOssKey : dto.imageOssKey = a.imageOssKey
  remark : dto.remark = a.remark
  usageStatus : dto.usageStatus.toAssetStatus = a.usageStatus

/-- The same but for the names of the category and the user. -/
def SameBusiness (a a' : Asset) : Prop :=
  a' = { a with categoryName := a'.categoryName, currentUserName := a'.currentUserName }

/-- Whoever may maintain an asset that is idle or in use can save it as it is. -/
def Resubmits (o : Office) : Prop :=
  ∀ id a, o.assets.find? id = some a → a.isLive = true →
    a.usageStatus = .idle ∨ a.usageStatus = .inUse →
    ∀ (env : FixedEnvironment) (operator : OperationLogOperator) (userId : Nat)
      (dto : AssetUpdateDto) (key : Option String) (fingerprint : String) (n : Nat)
      (s : FixedStore), s.assets = o.assets → OwnValues env a dto →
      inMaintainScope env userId a.departmentId = true →
      (∀ k, key.filter (· ≠ "") = some k →
        assetLog.record? s operator.id "asset.fixed.update" k = none) →
      ∃ n' s' a', (update (o.environment env) operator userId id dto key fingerprint).exec n s =
        .ok (.ok, n', s') ∧ s'.assets.find? id = some a' ∧ SameBusiness a a'

/-- No category is deleted that an asset names, and no transaction names one that was deleted
since it looked. -/
def isUndisturbed (o : Office) : OfficeEvent → Bool
  | .deleteCategories ids =>
      (o.assets.select fun _ a => a.isLive && a.categoryId.any fun c => ids.contains c).isEmpty
  | .advanceWriter i _ true =>
      match o.writers.find? i with
      | some ⟨write, .named _ _ _⟩ =>
          write.categoryId.all fun c => (o.catalog.categories.find? c).isSome
      | _ => true
  | _ => true

/-! ## Categories -/

structure CatalogSound (c : Catalog) : Prop where
  below : c.categories.Below c.sequence
  parents : ∀ id x p, c.categories.find? id = some x → x.parentId = some p → c.isTop p = true

/-- What an operation on categories leaves alone: the top ones, and where each one is. -/
structure CatalogStep (c c' : Catalog) : Prop where
  sequence : c.sequence ≤ c'.sequence
  tops : ∀ p, c.isTop p = true → c'.categories.find? p = c.categories.find? p
  rows : ∀ id x', c'.categories.find? id = some x' →
    (∃ x, c.categories.find? id = some x ∧ x.parentId = x'.parentId) ∨
      (c.sequence ≤ id ∧ id < c'.sequence ∧ ∀ p, x'.parentId = some p → c.isTop p = true)

section Categories

variable {c c' : Catalog} {id : Nat}

theorem CatalogStep.refl (c : Catalog) : CatalogStep c c :=
  ⟨Nat.le_refl _, fun _ _ => rfl, fun _ x hx => .inl ⟨x, hx, rfl⟩⟩

theorem isTop_iff : c.isTop id = true ↔
    ∃ x, c.categories.find? id = some x ∧ x.parentId = none := by
  unfold Catalog.isTop
  rw [Option.any_eq_true]
  constructor
  · rintro ⟨x, hx, htop⟩
    exact ⟨x, hx, Option.isNone_iff_eq_none.mp htop⟩
  · rintro ⟨x, hx, htop⟩
    exact ⟨x, hx, Option.isNone_iff_eq_none.mpr htop⟩

theorem CatalogStep.isTop (h : CatalogStep c c') (htop : c.isTop id = true) :
    c'.isTop id = true := by
  unfold Catalog.isTop
  rw [h.tops id htop]
  exact htop

theorem CatalogSound.step (hs : CatalogSound c) (h : CatalogStep c c') : CatalogSound c' where
  below id x' hx' := by
    rcases h.rows id x' hx' with ⟨x, hx, -⟩ | ⟨-, hlt, -⟩
    · exact Nat.lt_of_lt_of_le (hs.below id x hx) h.sequence
    · exact hlt
  parents id x' p hx' hp := by
    rcases h.rows id x' hx' with ⟨x, hx, hsame⟩ | ⟨-, -, htop⟩
    · exact h.isTop (hs.parents id x p hx (hsame.trans hp))
    · exact h.isTop (htop p hp)

theorem CatalogStep.topName (hs : CatalogSound c) (h : CatalogStep c c') {found : AssetCategory}
    (hlt : id < c.sequence) (hfound : c'.category? id = some found) :
    ∃ before, c.category? id = some before ∧ before.topName = found.topName := by
  obtain ⟨x', hx', rfl⟩ := Option.map_eq_some_iff.mp hfound
  rcases h.rows id x' hx' with ⟨x, hx, hsame⟩ | ⟨hge, -, -⟩
  · refine ⟨_, by rw [Catalog.category?, hx]; rfl, ?_⟩
    show ((x.parentId.bind c.categories.find?).map Category.name).getD x.name =
      ((x'.parentId.bind c'.categories.find?).map Category.name).getD x'.name
    rw [← hsame]
    cases hp : x.parentId with
    | none =>
        have htop := h.tops id (isTop_iff.mpr ⟨x, hx, hp⟩)
        obtain rfl := Option.some.inj (hx'.symm.trans (htop.trans hx))
        rfl
    | some p =>
        have hparent := hs.parents id x p hx hp
        obtain ⟨parent, hfind, -⟩ := isTop_iff.mp hparent
        simp only [Option.bind_some, h.tops p hparent, hfind, Option.map_some, Option.getD_some]
  · omega

theorem CatalogStep.insert (hs : CatalogSound c) (x : Category)
    (hx : ∀ p, x.parentId = some p → c.isTop p = true) : CatalogStep c (c.insert x) where
  sequence := Nat.le_succ _
  tops p hp := by
    obtain ⟨y, hy, -⟩ := isTop_iff.mp hp
    have hlt := hs.below p y hy
    exact Table.find?_insert_ne _ _ (by omega)
  rows id x' hx' := by
    have hx' : (c.categories.insert c.sequence x).find? id = some x' := hx'
    rw [Table.find?_insert] at hx'
    split at hx'
    · rename_i hid
      obtain rfl := Option.some.inj hx'
      exact .inr ⟨Nat.le_of_eq hid.symm, hid ▸ Nat.lt_succ_self _, hx⟩
    · exact .inl ⟨x', hx', rfl⟩

theorem catalogStep_ensureDefault (hs : CatalogSound c) (name : String) :
    CatalogStep c (c.ensureDefault name) := by
  unfold Catalog.ensureDefault
  split
  · exact .refl c
  · exact .insert hs _ nofun

theorem catalogStep_create (hs : CatalogSound c) (parentId : Option Nat) (name : String) :
    CatalogStep c (c.create parentId name) := by
  unfold Catalog.create
  cases parentId with
  | none => exact .refl c
  | some parent =>
      simp only
      split
      · exact .refl c
      · rename_i hok
        simp only [Bool.not_eq_true, Bool.or_eq_false_iff, Bool.not_eq_false'] at hok
        refine .insert hs _ fun p hp => ?_
        obtain rfl := Option.some.inj hp
        exact hok.1

theorem catalogStep_update (name : String) (isActive : Bool) :
    CatalogStep c (c.update id name isActive) := by
  unfold Catalog.update
  cases hfind : c.categories.find? id with
  | none => exact .refl c
  | some existing =>
      simp only
      split
      · exact .refl c
      · rename_i hok
        simp only [Bool.not_eq_true, Bool.or_eq_false_iff] at hok
        refine ⟨Nat.le_refl _, fun p hp => ?_, fun k x' hx' => .inl ?_⟩
        · refine Table.find?_update_ne _ _ fun heq => ?_
          subst heq
          obtain ⟨y, hy, htop⟩ := isTop_iff.mp hp
          obtain rfl := Option.some.inj (hfind.symm.trans hy)
          simp [htop] at hok
        · have hx' : (c.categories.update id _).find? k = some x' := hx'
          rw [Table.find?_update] at hx'
          obtain ⟨x, hx, rfl⟩ := Option.map_eq_some_iff.mp hx'
          refine ⟨x, hx, ?_⟩
          split
          · rfl
          · rfl

theorem find?_batchDelete (c : Catalog) (ids : List Nat) (k : Nat) :
    (c.batchDelete ids).categories.find? k = c.categories.find? k ∨
      (k ∈ ids ∧ c.isTop k = false ∧ (c.batchDelete ids).categories.find? k = none) := by
  unfold Catalog.batchDelete
  dsimp only
  split
  · exact .inl rfl
  · rename_i hok
    dsimp only
    rw [Table.find?_deleteMany]
    cases hx : c.categories.find? k with
    | none => exact .inl rfl
    | some x =>
        by_cases hk : k ∈ ids
        · refine .inr ⟨hk, ?_, by simp [hk]⟩
          have hrow : (k, x) ∈ c.categories.select fun id _ => ids.contains id :=
            Table.mem_select.mpr ⟨hx, by simp [hk]⟩
          simp only [Bool.or_eq_true, not_or, Bool.not_eq_true] at hok
          have hbelow := List.any_eq_false.mp hok.2 (k, x) hrow
          simpa [Catalog.isTop, hx, Option.isSome_iff_ne_none] using hbelow
        · exact .inl (by simp [hk])

theorem catalogStep_batchDelete (ids : List Nat) : CatalogStep c (c.batchDelete ids) := by
  refine ⟨?_, fun p hp => ?_, fun k x' hx' => .inl ?_⟩
  · unfold Catalog.batchDelete
    dsimp only
    split
    · exact Nat.le_refl _
    · exact Nat.le_refl _
  · rcases find?_batchDelete c ids p with hsame | ⟨-, hnot, -⟩
    · exact hsame
    · rw [hnot] at hp
      cases hp
  · rcases find?_batchDelete c ids k with hsame | ⟨-, -, hnone⟩
    · exact ⟨x', hsame ▸ hx', rfl⟩
    · rw [hnone] at hx'
      cases hx'

end Categories

/-! ## References -/

def WriterPhase.isCategorised : WriterPhase → Bool
  | .categorised _ _ => true
  | .assigned _ _ _ => true
  | .named _ _ _ => true
  | _ => false

/-- What a transaction has looked up is there, or was deleted since. -/
structure WriterSound (o : Office) (w : Writer) : Prop where
  category : w.phase.isCategorised = true → ∀ c, w.write.categoryId = some c →
    c < o.catalog.sequence ∧ ∀ x, o.catalog.category? c = some x → x.topName = fixedAssets
  user : ∀ category responsible current, w.phase = .named category responsible current →
    ∀ u, w.write.currentUserId = some u → (o.users.find? u).isSome = true

structure AssetSound (o : Office) (a : Asset) : Prop where
  category : ∀ c, a.categoryId = some c →
    ∃ x, o.catalog.category? c = some x ∧ x.topName = fixedAssets
  user : ∀ u, a.currentUserId = some u → (o.users.find? u).isSome = true

structure ReferencesSound (o : Office) : Prop where
  catalog : CatalogSound o.catalog
  assets : ∀ id a, o.assets.find? id = some a → a.isLive = true → AssetSound o a
  writers : ∀ i w, o.writers.find? i = some w → WriterSound o w

variable {c : Catalog} {id : Nat}

section References

variable {o : Office} {a : Asset} {w : Writer}

theorem category?_isSome : (c.category? id).isSome = (c.categories.find? id).isSome := Option.isSome_map

theorem below_of_category? (hs : CatalogSound c) {x : AssetCategory} (h : c.category? id = some x) :
    id < c.sequence := by
  obtain ⟨y, hy, -⟩ := Option.map_eq_some_iff.mp h
  exact hs.below id y hy

theorem ReferencesSound.setCatalog (h : ReferencesSound o) {c' : Catalog}
    (hstep : CatalogStep o.catalog c')
    (hkept : ∀ id a c, o.assets.find? id = some a → a.isLive = true → a.categoryId = some c →
      (c'.categories.find? c).isSome = true) : ReferencesSound { o with catalog := c' } where
  catalog := h.catalog.step hstep
  assets id a ha hlive := by
    refine ⟨fun c hc => ?_, (h.assets id a ha hlive).user⟩
    have hsome := hkept id a c ha hlive hc
    rw [← category?_isSome, Option.isSome_iff_exists] at hsome
    obtain ⟨x', hx'⟩ := hsome
    obtain ⟨x, hx, htop⟩ := (h.assets id a ha hlive).category c hc
    obtain ⟨y, hy, hsame⟩ := hstep.topName h.catalog (below_of_category? h.catalog hx) hx'
    obtain rfl := Option.some.inj (hx.symm.trans hy)
    exact ⟨x', hx', hsame.symm.trans htop⟩
  writers i w hw := by
    refine ⟨fun hphase c hc => ?_, (h.writers i w hw).user⟩
    obtain ⟨hlt, htop⟩ := (h.writers i w hw).category hphase c hc
    refine ⟨Nat.lt_of_lt_of_le hlt hstep.sequence, fun x' hx' => ?_⟩
    obtain ⟨x, hx, hsame⟩ := hstep.topName h.catalog hlt hx'
    exact hsame.symm.trans (htop x hx)

theorem kept_of_rows (h : ReferencesSound o) {c' : Catalog}
    (hrows : ∀ id, (o.catalog.categories.find? id).isSome = true →
      (c'.categories.find? id).isSome = true) :
    ∀ id a c, o.assets.find? id = some a → a.isLive = true → a.categoryId = some c →
      (c'.categories.find? c).isSome = true := by
  intro id a c ha hlive hc
  obtain ⟨x, hx, -⟩ := (h.assets id a ha hlive).category c hc
  refine hrows c ?_
  rw [← category?_isSome, hx]
  rfl

theorem isSome_find?_insert {α : Type} {t : Table α} {k i : Nat} {r : α}
    (h : (t.find? i).isSome = true) : ((t.insert k r).find? i).isSome = true := by
  rw [Table.find?_insert]
  split
  · rfl
  · exact h

theorem ReferencesSound.setUser (h : ReferencesSound o) (id : Nat) (account : UserAccount) :
    ReferencesSound { o with users := o.users.insert id account } where
  catalog := h.catalog
  assets k a ha hlive :=
    ⟨(h.assets k a ha hlive).category, fun u hu =>
      isSome_find?_insert ((h.assets k a ha hlive).user u hu)⟩
  writers i w hw :=
    ⟨(h.writers i w hw).category, fun category responsible current hphase u hu =>
      isSome_find?_insert ((h.writers i w hw).user category responsible current hphase u hu)⟩

theorem ReferencesSound.setAssets (h : ReferencesSound o) {assets : Table Asset} {sequence : Nat}
    (hassets : ∀ id a, assets.find? id = some a → a.isLive = true → AssetSound o a) :
    ReferencesSound { o with assets := assets, sequence := sequence } where
  catalog := h.catalog
  assets id a ha hlive := ⟨(hassets id a ha hlive).category, (hassets id a ha hlive).user⟩
  writers i w hw := ⟨(h.writers i w hw).category, (h.writers i w hw).user⟩

theorem ReferencesSound.restate (h : ReferencesSound o) (id : Nat) (r : Restatement) :
    ReferencesSound { o with assets := o.assets.update id r.apply } := by
  refine h.setAssets fun k a' ha' hlive => ?_
  rw [Table.find?_update] at ha'
  obtain ⟨a, ha, rfl⟩ := Option.map_eq_some_iff.mp ha'
  split at hlive
  · rename_i hk
    rw [if_pos hk]
    have hlive : a.isLive = true := by
      cases hdeleted : a.deletedAt with
      | none => simp [Asset.isLive, hdeleted]
      | some t => simp [Asset.isLive, Restatement.apply, hdeleted] at hlive
    exact ⟨(h.assets k a ha hlive).category, (h.assets k a ha hlive).user⟩
  · rename_i hk
    rw [if_neg hk]
    exact h.assets k a ha hlive

theorem ReferencesSound.setWriters (h : ReferencesSound o) {writers : Table Writer}
    (hwriters : ∀ i w, writers.find? i = some w → WriterSound o w) :
    ReferencesSound { o with writers := writers } where
  catalog := h.catalog
  assets id a ha hlive := ⟨(h.assets id a ha hlive).category, (h.assets id a ha hlive).user⟩
  writers i w hw := ⟨(hwriters i w hw).category, (hwriters i w hw).user⟩

theorem ReferencesSound.endWriter (h : ReferencesSound o) (i : Nat) :
    ReferencesSound (o.setWriter i none) := by
  refine h.setWriters fun j w hw => ?_
  rw [Table.find?_deleteMany] at hw
  obtain ⟨w', hw', hif⟩ := Option.bind_eq_some_iff.mp hw
  split at hif
  · cases hif
  · obtain rfl := Option.some.inj hif
    exact h.writers j w' hw'

theorem ReferencesSound.setWriter (h : ReferencesSound o) {i : Nat} (hw : WriterSound o w) :
    ReferencesSound (o.setWriter i (some w)) := by
  refine h.setWriters fun j w' hw' => ?_
  rw [Table.find?_insert] at hw'
  split at hw'
  · obtain rfl := Option.some.inj hw'
    exact hw
  · exact h.writers j w' hw'

end References

section Chosen

variable {env : FixedEnvironment}

theorem category_of_categoryName {currentId : Option Nat} {id : Nat} {name : Option String}
    (h : categoryName env currentId (some id) = .ok name) :
    ∃ x, env.category id = some x ∧ x.topName = fixedAssets := by
  cases hfind : env.category id with
  | none => simp [categoryName, hfind] at h
  | some x =>
      by_cases htop : x.topName = fixedAssets
      · exact ⟨x, rfl, htop⟩
      · simp [categoryName, hfind, htop] at h

theorem categoryName_kept {wanted : Option Nat}
    (h : ∀ id, wanted = some id → ∃ x, env.category id = some x ∧ x.topName = fixedAssets) :
    ∃ name, categoryName env wanted wanted = .ok name := by
  cases wanted with
  | none => exact ⟨none, rfl⟩
  | some id =>
      obtain ⟨x, hx, htop⟩ := h id rfl
      exact ⟨some x.name, by simp [categoryName, hx, htop]⟩

theorem user_of_userName {currentId : Option Nat} {id : Nat} {name : Option String}
    (h : userName env currentId (some id) = .ok name) : (env.userAccount id).isSome = true := by
  cases hfind : env.userAccount id with
  | none => simp [userName, hfind] at h
  | some x => rfl

theorem userName_kept {wanted : Option Nat}
    (h : ∀ id, wanted = some id → (env.userAccount id).isSome = true) :
    ∃ name, userName env wanted wanted = .ok name := by
  cases wanted with
  | none => exact ⟨none, rfl⟩
  | some id =>
      obtain ⟨x, hx⟩ := Option.isSome_iff_exists.mp (h id rfl)
      exact ⟨some x.name, by simp [userName, hx]⟩

end Chosen

section Steps

variable {o : Office} {w : Writer}

theorem AssetSound.of_writer {a : Asset} {category responsible current : Option String}
    (h : WriterSound o w) (hphase : w.phase = .named category responsible current)
    (hthere : ∀ c, w.write.categoryId = some c → (o.catalog.categories.find? c).isSome = true)
    (hcategory : a.categoryId = w.write.categoryId)
    (huser : a.currentUserId = w.write.currentUserId) : AssetSound o a where
  category c hc := by
    rw [hcategory] at hc
    have hsome := hthere c hc
    rw [← category?_isSome, Option.isSome_iff_exists] at hsome
    obtain ⟨x, hx⟩ := hsome
    exact ⟨x, hx, (h.category (by rw [hphase]; rfl) c hc).2 x hx⟩
  user u hu := h.user category responsible current hphase u (huser ▸ hu)

theorem ReferencesSound.commit (h : ReferencesSound o) (env : FixedEnvironment)
    {category responsible current : Option String} (hw : WriterSound o w)
    (hphase : w.phase = .named category responsible current)
    (hthere : ∀ c, w.write.categoryId = some c → (o.catalog.categories.find? c).isSome = true) :
    ReferencesSound (o.commit env w.write category responsible current) := by
  cases hwrite : w.write with
  | create dto =>
      refine h.setAssets fun id a ha hlive => ?_
      rw [Table.find?_insert] at ha
      split at ha
      · obtain rfl := Option.some.inj ha
        exact .of_writer hw hphase hthere (by rw [hwrite]; rfl) (by rw [hwrite]; rfl)
      · exact h.assets id a ha hlive
  | update target dto =>
      refine h.setAssets fun id a' ha' hlive => ?_
      rw [Table.find?_update] at ha'
      obtain ⟨a, ha, rfl⟩ := Option.map_eq_some_iff.mp ha'
      split at hlive
      · rename_i hid
        rw [if_pos hid]
        exact .of_writer hw hphase hthere (by rw [hwrite]; rfl) (by rw [hwrite]; rfl)
      · rename_i hid
        rw [if_neg hid]
        exact h.assets id a ha hlive

theorem ok_of_map {ε α β : Type} {x : Except ε α} {f : α → β} {b : β} (h : x.map f = .ok b) :
    ∃ a, x = .ok a ∧ f a = b := by
  cases x with
  | error e => cases h
  | ok a => exact ⟨a, rfl, Except.ok.inj h⟩

theorem WriterSound.statement (hw : WriterSound o w) (hs : CatalogSound o.catalog)
    {env : FixedEnvironment} {phase : WriterPhase} (h : (o.statement env w).2 = .ok (some phase)) :
    (o.statement env w).1 = o ∧ WriterSound o { w with phase := phase } := by
  unfold Office.statement at h ⊢
  cases hphase : w.phase with
  | begun =>
      rw [hphase] at h
      obtain ⟨existing, -, hnext⟩ := ok_of_map h
      obtain rfl := Option.some.inj hnext
      exact ⟨rfl, nofun, nofun⟩
  | found existing =>
      rw [hphase] at h
      obtain ⟨name, hname, hnext⟩ := ok_of_map h
      obtain rfl := Option.some.inj hnext
      refine ⟨rfl, fun _ c hc => ?_, nofun⟩
      rw [show w.write.categoryId = some c from hc] at hname
      obtain ⟨x, hx, htop⟩ := category_of_categoryName hname
      refine ⟨below_of_category? hs hx, fun y hy => ?_⟩
      obtain rfl := Option.some.inj (hx.symm.trans hy)
      exact htop
  | categorised existing category =>
      rw [hphase] at h
      obtain ⟨name, -, hnext⟩ := ok_of_map h
      obtain rfl := Option.some.inj hnext
      exact ⟨rfl, fun _ => hw.category (by rw [hphase]; rfl), nofun⟩
  | assigned existing category responsible =>
      rw [hphase] at h
      obtain ⟨name, hname, hnext⟩ := ok_of_map h
      obtain rfl := Option.some.inj hnext
      refine ⟨rfl, fun _ => hw.category (by rw [hphase]; rfl), fun _ _ _ _ u hu => ?_⟩
      rw [show w.write.currentUserId = some u from hu] at hname
      exact user_of_userName hname
  | named category responsible current =>
      rw [hphase] at h
      cases h

theorem statement_last {env : FixedEnvironment} (h : (o.statement env w).2 = .ok none) :
    ∃ category responsible current, w.phase = .named category responsible current ∧
      (o.statement env w).1 =
        o.commit (o.environment env) w.write category responsible current := by
  unfold Office.statement at h ⊢
  cases hphase : w.phase with
  | named category responsible current => exact ⟨category, responsible, current, rfl, rfl⟩
  | _ =>
      rw [hphase] at h
      obtain ⟨_, _, hnext⟩ := ok_of_map h
      cases hnext

theorem ReferencesSound.advanceWriter (h : ReferencesSound o) {i : Nat}
    (hw : o.writers.find? i = some w) (env : FixedEnvironment) (passes : Bool)
    (hthere : passes = true → ∀ category responsible current,
      w.phase = .named category responsible current →
      ∀ c, w.write.categoryId = some c → (o.catalog.categories.find? c).isSome = true) :
    ReferencesSound (o.advanceWriter i env passes w) := by
  unfold Office.advanceWriter
  split
  · exact h.endWriter i
  · rename_i hpasses
    have hpasses : passes = true := by simpa using hpasses
    cases hresult : (o.statement env w).2 with
    | error e => exact h.endWriter i
    | ok next =>
        cases next with
        | none =>
            obtain ⟨category, responsible, current, hphase, hcommit⟩ := statement_last hresult
            show ReferencesSound ((o.statement env w).1.setWriter i none)
            rw [hcommit]
            exact (h.commit (o.environment env) (h.writers i w hw) hphase
              (hthere hpasses category responsible current hphase)).endWriter i
        | some phase =>
            obtain ⟨hsame, hsound⟩ := (h.writers i w hw).statement h.catalog hresult
            show ReferencesSound
              ((o.statement env w).1.setWriter i (some { w with phase := phase }))
            rw [hsame]
            exact h.setWriter hsound

theorem isSome_of_catalogStep_insert {x : Category} (h : (c.categories.find? id).isSome = true) :
    ((c.insert x).categories.find? id).isSome = true := isSome_find?_insert h

theorem ReferencesSound.step (h : ReferencesSound o) {e : OfficeEvent}
    (he : isUndisturbed o e = true) : ReferencesSound (o.step e) := by
  cases e with
  | startWriter i write =>
      show ReferencesSound (if (o.writers.find? i).isSome then o
        else o.setWriter i (some ⟨write, .begun⟩))
      split
      · exact h
      · exact h.setWriter ⟨by simp [WriterPhase.isCategorised], by simp⟩
  | advanceWriter i env passes =>
      cases hw : o.writers.find? i with
      | none =>
          simp only [Office.step, hw]
          exact h
      | some w =>
          simp only [Office.step, hw]
          refine h.advanceWriter hw env passes
            fun hpasses category responsible current hphase c hc => ?_
          obtain ⟨write, phase⟩ := w
          obtain rfl : phase = _ := hphase
          subst hpasses
          have hall : write.categoryId.all
              (fun c => (o.catalog.categories.find? c).isSome) = true := by
            simpa only [isUndisturbed, hw] using he
          rw [show write.categoryId = some c from hc] at hall
          exact hall
  | restate id r => exact h.restate id r
  | ensureDefault name =>
      refine h.setCatalog (catalogStep_ensureDefault h.catalog name)
        (kept_of_rows h fun id hid => ?_)
      unfold Catalog.ensureDefault
      split
      · exact hid
      · exact isSome_of_catalogStep_insert hid
  | createCategory parentId name =>
      refine h.setCatalog (catalogStep_create h.catalog parentId name)
        (kept_of_rows h fun id hid => ?_)
      unfold Catalog.create
      cases parentId with
      | none => exact hid
      | some parent =>
          simp only
          split
          · exact hid
          · exact isSome_of_catalogStep_insert hid
  | updateCategory target name isActive =>
      refine h.setCatalog (catalogStep_update name isActive) (kept_of_rows h fun id hid => ?_)
      unfold Catalog.update
      cases o.catalog.categories.find? target with
      | none => exact hid
      | some existing =>
          simp only
          split
          · exact hid
          · rw [Table.find?_update, Option.isSome_map]
            exact hid
  | deleteCategories ids =>
      refine h.setCatalog (catalogStep_batchDelete ids) fun id a c ha hlive hc => ?_
      obtain ⟨x, hx, -⟩ := (h.assets id a ha hlive).category c hc
      rcases find?_batchDelete o.catalog ids c with hsame | ⟨hmem, -, -⟩
      · rw [hsame, ← category?_isSome, hx]
        rfl
      · have hnone := List.isEmpty_iff.mp he
        have hrow : (id, a) ∈ o.assets.select fun _ a =>
            a.isLive && a.categoryId.any fun c => ids.contains c :=
          Table.mem_select.mpr ⟨ha, by simp [hlive, hc, hmem]⟩
        rw [hnone] at hrow
        cases hrow
  | setUser id account => exact h.setUser id account

theorem referencesSound_opened (users : Table UserAccount) :
    ReferencesSound (Office.opened users) where
  catalog := { below := Table.below_empty 0, parents := fun _ _ _ h => nomatch h }
  assets _ _ h := nomatch h
  writers _ _ h := nomatch h

end Steps

section Saving

variable {env : FixedEnvironment} {operator : OperationLogOperator} {userId id n : Nat}
  {dto : AssetUpdateDto} {s : FixedStore} {a : Asset} {o : Office}

theorem wp_updateRun (ha : s.assets.find? id = some a) (hlive : a.isLive = true)
    (hscope : inMaintainScope env userId a.departmentId = true) (hfree : isUnderRepair a = false)
    {category current : Option String}
    (hcategory : categoryName env a.categoryId dto.categoryId = .ok category)
    (hcurrent : userName env a.currentUserId dto.currentUserId = .ok current) :
    (updateRun env operator userId id dto).wp (fun outcome _ s' =>
      assetLog.get s' = assetLog.get s ∧ outcome.result = .ok ∧
        s'.assets.find? id = some (dto.writeOver env category current a)) (fun _ => False) n s := by
  have hfound : (s.assets.find? id).filter Asset.isLive = some a := by
    rw [ha]
    simp [Option.filter, hlive]
  have hupdated : (s.assets.update id (dto.writeOver env category current)).find? id =
      some (dto.writeOver env category current a) := Table.find?_update_of_find? ha _
  refine (Txn.wp_bind _ _).mpr ((Txn.wp_bind _ _).mpr ((Txn.wp_query _).mpr ?_))
  refine (Txn.wp_orThrow _ _).mpr ⟨fun x hx => ?_, fun hnone => ?_⟩
  · obtain rfl := Option.some.inj (hfound.symm.trans hx)
    refine (Txn.wp_bind _ _).mpr (wp_assertMaintainScope.mpr ⟨fun _ => ?_, by simp [hscope]⟩)
    refine (Txn.wp_bind _ _).mpr ((Txn.wp_guard _ _).mpr ⟨fun _ => ?_, fun hno => ?_⟩)
    · rw [hcategory, hcurrent]
      show (updateAsset id (dto.writeOver env category current) >>= _).wp _ _ n s
      refine (Txn.wp_bind _ _).mpr (wp_updateAsset ha ?_)
      split
      · exact ⟨rfl, rfl, hupdated⟩
      · exact (Txn.wp_bind _ _).mpr (wp_writeAssetChange ⟨rfl, rfl, hupdated⟩)
    · rw [hfree] at hno
      cases hno
  · rw [hfound] at hnone
    cases hnone

theorem OwnValues.sameBusiness (h : OwnValues env a dto) (category current : Option String) :
    SameBusiness a (dto.writeOver env category current a) := by
  unfold SameBusiness AssetUpdateDto.writeOver
  rw [h.name, h.categoryId, h.specModel, h.amount, h.purchaseAt, h.ownership, h.ownerName,
    h.currentUserId, h.imageOssKey, h.remark, h.usageStatus]

theorem ReferencesSound.resubmits (h : ReferencesSound o) : Resubmits o := by
  intro id a ha hlive hstatus env operator userId dto key fingerprint n s hassets hown hscope hfresh
  have hsound := h.assets id a ha hlive
  have hfree : isUnderRepair a = false := by
    unfold isUnderRepair
    rcases hstatus with hidle | hinUse
    · rw [hidle]
      rfl
    · rw [hinUse]
      rfl
  obtain ⟨category, hcategory⟩ : ∃ name,
      categoryName (o.environment env) a.categoryId dto.categoryId = .ok name := by
    rw [hown.categoryId]
    exact categoryName_kept hsound.category
  obtain ⟨current, hcurrent⟩ : ∃ name,
      userName (o.environment env) a.currentUserId dto.currentUserId = .ok name := by
    rw [hown.currentUserId]
    exact userName_kept hsound.user
  have hreach : inMaintainScope (o.environment env) userId a.departmentId = true := hscope
  have hrun : (updateRun (o.environment env) operator userId id dto).wp _ _ n s :=
    wp_updateRun (hassets ▸ ha) hlive hreach hfree hcategory hcurrent
  obtain ⟨outcome, n', s', row, ⟨hok, hrow⟩, hexec⟩ := exec_of_fresh
    (o := options "asset.fixed.update" operator key fingerprint) hfresh hrun
  rw [hok] at hexec
  refine ⟨n' + 1, _, _, hexec, hrow, ?_⟩
  have hbusiness : OwnValues (o.environment env) a dto :=
    ⟨hown.name, hown.categoryId, hown.specModel, hown.amount, hown.purchaseAt, hown.ownership,
      hown.ownerName, hown.currentUserId, hown.imageOssKey, hown.remark, hown.usageStatus⟩
  exact hbusiness.sameBusiness category current

end Saving

/-! ## Runs -/

/-- Along a run in which no category is deleted from under an asset, every asset that is idle or
in use can be saved as it is. -/
theorem resubmits_of_run (users : Table UserAccount) (es : List OfficeEvent)
    (h : Along Office.step (fun o e => isUndisturbed o e = true) (Office.opened users) es) :
    Along Office.step (fun o e => Resubmits (o.step e)) (Office.opened users) es :=
  h.strengthen (I := ReferencesSound) (referencesSound_opened users)
    (fun _ _ hsound he => hsound.step he) fun _ _ hsound he => (hsound.step he).resubmits

/-! ## A laptop -/

def registrar : FixedEnvironment where
  now := 0
  access _ := ⟨true, true, "asset", true, some .company⟩
  closureOfUser _ := []
  category _ := none
  department _ := none
  userAccount _ := none
  belongs _ _ := true
  decimal t := if t = "12.50" then 1250 else 0
  decimalText _ := "12.5"
  time _ := 0
  date _ := 0

def laptopDto : AssetCreateDto where
  name := "laptop"
  categoryId := some 1
  specModel := none
  amount := "12.50"
  purchaseAt := none
  ownership := .company
  ownerName := none
  departmentId := none
  responsibleUserId := none
  currentUserId := some 7
  imageOssKey := none
  remark := none

def ownLaptopDto : AssetUpdateDto where
  name := "laptop"
  categoryId := some 1
  specModel := none
  amount := "12.50"
  purchaseAt := none
  ownership := .company
  ownerName := none
  currentUserId := some 7
  imageOssKey := none
  remark := none
  usageStatus := .idle

def colleagues : Table UserAccount := Table.empty.insert 7 ⟨"Lin", true⟩

def laptopRun : List OfficeEvent :=
  [.ensureDefault fixedAssets, .createCategory (some 0) "electronics",
    .startWriter 0 (.create laptopDto)] ++ List.replicate 5 (.advanceWriter 0 registrar true)

/-- The category of the laptop is disabled, and the account of its user closed. -/
theorem resubmits_laptop :
    Along Office.step (fun o e => Resubmits (o.step e)) (Office.opened colleagues)
        (laptopRun ++ [.updateCategory 1 "devices" false, .setUser 7 ⟨"Lin", false⟩]) ∧
      (((laptopRun.foldl Office.step (Office.opened colleagues)).assets.find? 0).map
        fun a => (a.isLive, a.categoryId, a.currentUserId)) = some (true, some 1, some 7) :=
  ⟨resubmits_of_run colleagues _ (by decide +kernel), by decide +kernel⟩

/-- The category of the laptop is deleted. -/
theorem not_resubmits_laptop :
    ¬ Along Office.step (fun o e => Resubmits (o.step e)) (Office.opened colleagues)
      (laptopRun ++ [.deleteCategories [1]]) := by
  intro h
  have hsaved := h.at_split
  generalize ho : (laptopRun.foldl Office.step (Office.opened colleagues)).step
    (.deleteCategories [1]) = o at hsaved
  have hrow : o.assets.find? 0 = some (laptopDto.row registrar (some "electronics") none
      (some "Lin")) := by
    rw [← ho]
    decide +kernel
  obtain ⟨n, s, a, hexec, -⟩ := hsaved 0 _ hrow rfl (.inl rfl) registrar ⟨1, "operator", []⟩ 1
    ownLaptopDto none "" 0 { FixedStore.empty with assets := o.assets } rfl
    ⟨rfl, rfl, rfl, rfl, rfl, rfl, rfl, rfl, rfl, rfl, rfl⟩ rfl nofun
  have hrefused : ((update (o.environment registrar) ⟨1, "operator", []⟩ 1 0 ownLaptopDto none
      "").exec 0 { FixedStore.empty with assets := o.assets }).toBool = false := by
    rw [← ho]
    decide +kernel
  rw [hexec] at hrefused
  cases hrefused

end Wbme.FixedAsset

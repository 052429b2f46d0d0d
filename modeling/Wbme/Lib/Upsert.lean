import Wbme.Lib.Table

/-!
# Bringing definitions into a table

Rows and definitions have keys. Every definition is looked up in the table as it was at first: a
row that is missing is made, a row that differs is set right, and the key of the row is noted.
With distinct keys the order of the definitions is of no account.
-/

namespace Wbme.Lib

section Lookup

variable {κ ρ : Type} (keyOf : ρ → κ) {t : Table ρ} {k : κ} {id : Nat} {r : ρ}

/-- No two rows have one key. -/
def KeysUnique (t : Table ρ) : Prop :=
  ∀ i j r q, t.find? i = some r → t.find? j = some q → keyOf r = keyOf q → i = j

/-- A table that has lost rows has no more rows with one key. -/
theorem KeysUnique.of_sub {t' : Table ρ} {keyOf : ρ → κ} (h : KeysUnique keyOf t)
    (hsub : ∀ id r, t'.find? id = some r → t.find? id = some r) : KeysUnique keyOf t' :=
  fun i j r q hr hq => h i j r q (hsub i r hr) (hsub j q hq)

variable [DecidableEq κ]

/-- The last row with a key. -/
def lookup (t : Table ρ) (k : κ) : Option (Nat × ρ) :=
  (t.select fun _ r => keyOf r = k).getLast?

variable {keyOf}

theorem lookup_some (h : lookup keyOf t k = some (id, r)) : t.find? id = some r ∧ keyOf r = k := by
  have hmem := Table.mem_select.mp (List.mem_of_getLast? h)
  exact ⟨hmem.1, of_decide_eq_true hmem.2⟩

theorem lookup_none (h : lookup keyOf t k = none) (hr : t.find? id = some r) : keyOf r ≠ k := by
  intro hk
  have hmem : (id, r) ∈ t.select fun _ r => keyOf r = k :=
    Table.mem_select.mpr ⟨hr, decide_eq_true hk⟩
  rw [List.getLast?_eq_none_iff.mp h] at hmem
  cases hmem

theorem KeysUnique.lookup_iff (h : KeysUnique keyOf t) :
    lookup keyOf t k = some (id, r) ↔ t.find? id = some r ∧ keyOf r = k := by
  constructor
  · exact lookup_some
  · intro ⟨hr, hk⟩
    cases hl : lookup keyOf t k with
    | none => exact absurd hk (lookup_none hl hr)
    | some found =>
        obtain ⟨j, q⟩ := found
        obtain ⟨hq, hqk⟩ := lookup_some hl
        obtain rfl := h id j r q hr hq (hk.trans hqk.symm)
        rw [Option.some.inj (hr.symm.trans hq)]

end Lookup

/-- Definitions, rows and the reports of what is done. -/
structure Upsert (κ δ ρ τ : Type) where
  keyOf : ρ → κ
  key : δ → κ
  /-- The name a row is noted under. -/
  label : δ → String
  make : δ → ρ
  fix : δ → ρ → ρ
  differs : δ → ρ → Bool
  note : δ → Option ρ → τ → τ

/-- Keys stay, and just the rows that would be other ones are set right. -/
structure Upsert.Lawful {κ δ ρ τ : Type} (u : Upsert κ δ ρ τ) : Prop where
  keyOf_make : ∀ d, u.keyOf (u.make d) = u.key d
  keyOf_fix : ∀ d r, u.keyOf (u.fix d r) = u.keyOf r
  same : ∀ d r, u.differs d r = false → u.fix d r = r
  quiet : ∀ d r report, u.differs d r = false → u.note d (some r) report = report
  fixed : ∀ d r, u.differs d (u.fix d r) = false
  made : ∀ d, u.differs d (u.make d) = false

structure Upserting (ρ τ : Type) where
  table : Table ρ
  nextId : Nat
  ids : String → Option Nat
  report : τ

namespace Upsert

variable {κ δ ρ τ : Type} [DecidableEq κ] (u : Upsert κ δ ρ τ)

def one (snapshot : Table ρ) (s : Upserting ρ τ) (d : δ) : Upserting ρ τ :=
  match lookup u.keyOf snapshot (u.key d) with
  | none =>
      { table := s.table.insert s.nextId (u.make d)
        nextId := s.nextId + 1
        ids := Function.update s.ids (u.label d) (some s.nextId)
        report := u.note d none s.report }
  | some (id, row) =>
      { table := if u.differs d row then s.table.update id (u.fix d) else s.table
        nextId := s.nextId
        ids := Function.update s.ids (u.label d) (some id)
        report := u.note d (some row) s.report }

def all (t : Table ρ) (nextId : Nat) (report : τ) (defs : List δ) : Upserting ρ τ :=
  defs.foldl (u.one t) ⟨t, nextId, fun _ => none, report⟩

/-- The row of a definition: the one that was there, set right, or a new one. -/
inductive Settled (t : Table ρ) (d : δ) : Nat → ρ → Prop where
  | kept {id : Nat} {row : ρ} (h : t.find? id = some row) (hkey : u.keyOf row = u.key d) :
      Settled t d id (u.fix d row)
  | made {id : Nat} (h : lookup u.keyOf t (u.key d) = none) (hnew : t.find? id = none) :
      Settled t d id (u.make d)

/-- Some definitions have their rows, and the rows of other keys are as they were. -/
structure Done (t : Table ρ) (defs : List δ) (s : Upserting ρ τ) : Prop where
  unique : KeysUnique u.keyOf s.table
  below : s.table.Below s.nextId
  old : t.Below s.nextId
  rows : ∀ d ∈ defs, ∃ id row, s.ids (u.label d) = some id ∧ s.table.find? id = some row ∧
    u.Settled t d id row
  others : ∀ id row, (∀ d ∈ defs, u.key d ≠ u.keyOf row) →
    (s.table.find? id = some row ↔ t.find? id = some row)

variable {u} {t : Table ρ} {defs : List δ} {s : Upserting ρ τ} {d : δ}

theorem Settled.key {id : Nat} {row : ρ} (hu : u.Lawful) (h : u.Settled t d id row) :
    u.keyOf row = u.key d := by
  cases h with
  | kept _ hkey => rw [hu.keyOf_fix, hkey]
  | made _ _ => exact hu.keyOf_make d

section Step

variable (hu : u.Lawful) (h : u.Done t defs s) (hkey : ∀ d' ∈ defs, u.key d' ≠ u.key d)
  (hlabel : ∀ d' ∈ defs, u.label d' ≠ u.label d)

include hu h hkey hlabel

theorem Done.make (hnone : lookup u.keyOf t (u.key d) = none) (report : τ) :
    u.Done t (defs ++ [d]) ⟨s.table.insert s.nextId (u.make d), s.nextId + 1,
      Function.update s.ids (u.label d) (some s.nextId), report⟩ := by
  have hfresh : ∀ j q, s.table.find? j = some q → u.keyOf q ≠ u.key d := by
    intro j q hq hqk
    exact lookup_none hnone ((h.others j q fun d' hd' => hqk.symm ▸ hkey d' hd').mp hq) hqk
  refine ⟨fun i j r q hr hq hrq => ?_, h.below.insert_succ _, h.old.mono (Nat.le_succ _), ?_, ?_⟩
  · by_cases hi : i = s.nextId <;> by_cases hj : j = s.nextId
    · rw [hi, hj]
    · rw [hi, Table.find?_insert_self] at hr
      rw [Table.find?_insert_ne _ _ hj] at hq
      cases hr
      exact absurd (hrq.symm.trans (hu.keyOf_make d)) (hfresh j q hq)
    · rw [hj, Table.find?_insert_self] at hq
      rw [Table.find?_insert_ne _ _ hi] at hr
      cases hq
      exact absurd (hrq.trans (hu.keyOf_make d)) (hfresh i r hr)
    · rw [Table.find?_insert_ne _ _ hi] at hr
      rw [Table.find?_insert_ne _ _ hj] at hq
      exact h.unique i j r q hr hq hrq
  · intro d' hd'
    rcases List.mem_append.mp hd' with hd' | hd'
    · obtain ⟨id, row, hid, hrow, hsettled⟩ := h.rows d' hd'
      have hne := (h.below id row hrow).ne
      exact ⟨id, row, (Function.update_of_ne (hlabel d' hd') _ _).trans hid,
        (Table.find?_insert_ne _ _ hne).trans hrow, hsettled⟩
    · obtain rfl := List.mem_singleton.mp hd'
      exact ⟨s.nextId, u.make d', Function.update_self .., Table.find?_insert_self .., .made hnone
        (h.old.find?_none le_rfl)⟩
  · intro id row hrow
    have hd := hu.keyOf_make d ▸ hrow d (List.mem_append_right _ List.mem_cons_self)
    rw [← h.others id row fun d' hd' => hrow d' (List.mem_append_left _ hd')]
    by_cases hid : id = s.nextId
    · rw [hid, Table.find?_insert_self, h.below.find?_none le_rfl]
      constructor
      · intro heq
        exact absurd (congrArg u.keyOf (Option.some.inj heq)) hd
      · exact nofun
    · rw [Table.find?_insert_ne _ _ hid]

theorem Done.keep {id₀ : Nat} {row₀ : ρ} (hrow₀ : t.find? id₀ = some row₀)
    (hkey₀ : u.keyOf row₀ = u.key d) (report : τ) :
    u.Done t (defs ++ [d])
      ⟨if u.differs d row₀ then s.table.update id₀ (u.fix d) else s.table, s.nextId,
        Function.update s.ids (u.label d) (some id₀), report⟩ := by
  have hthere : s.table.find? id₀ = some row₀ :=
    (h.others id₀ row₀ fun d' hd' => hkey₀.symm ▸ hkey d' hd').mpr hrow₀
  -- a row that does not differ is set right by leaving it
  have hfind : ∀ i, (if u.differs d row₀ then s.table.update id₀ (u.fix d) else s.table).find? i =
      if i = id₀ then some (u.fix d row₀) else s.table.find? i := by
    intro i
    by_cases hi : i = id₀
    · subst hi
      cases hdiff : u.differs d row₀ with
      | true => simp [hthere]
      | false => simp [hthere, hu.same d row₀ hdiff]
    · split
      · simp [Table.find?_update_ne _ _ hi]
      · simp
  have hkeys : ∀ i r, (if i = id₀ then some (u.fix d row₀) else s.table.find? i) = some r →
      ∃ r', s.table.find? i = some r' ∧ u.keyOf r' = u.keyOf r := by
    intro i r hr
    split at hr
    · cases hr
      exact ⟨row₀, ‹i = id₀› ▸ hthere, (hu.keyOf_fix d row₀).symm⟩
    · exact ⟨r, hr, rfl⟩
  refine ⟨fun i j r q hr hq hrq => ?_, fun i r hr => ?_, h.old, ?_, ?_⟩
  · obtain ⟨r', hr', hrk⟩ := hkeys i r ((hfind i).symm.trans hr)
    obtain ⟨q', hq', hqk⟩ := hkeys j q ((hfind j).symm.trans hq)
    exact h.unique i j r' q' hr' hq' (hrk.trans (hrq.trans hqk.symm))
  · obtain ⟨r', hr', -⟩ := hkeys i r ((hfind i).symm.trans hr)
    exact h.below i r' hr'
  · intro d' hd'
    rcases List.mem_append.mp hd' with hd' | hd'
    · obtain ⟨id, row, hid, hrow, hsettled⟩ := h.rows d' hd'
      have hne : id ≠ id₀ := by
        intro heq
        rw [heq, hthere] at hrow
        obtain rfl := Option.some.inj hrow
        exact hkey d' hd' ((hsettled.key hu).symm.trans hkey₀)
      exact ⟨id, row, (Function.update_of_ne (hlabel d' hd') _ _).trans hid,
        by rw [hfind, if_neg hne, hrow], hsettled⟩
    · obtain rfl := List.mem_singleton.mp hd'
      exact ⟨id₀, u.fix d' row₀, Function.update_self .., by rw [hfind, if_pos rfl],
        .kept hrow₀ hkey₀⟩
  · intro id row hrow
    have hd := hrow d (List.mem_append_right _ List.mem_cons_self)
    show (if u.differs d row₀ then s.table.update id₀ (u.fix d) else s.table).find? id = _ ↔ _
    rw [hfind, ← h.others id row fun d' hd' => hrow d' (List.mem_append_left _ hd')]
    split
    · rename_i hid
      rw [hid, hthere]
      constructor
      · intro heq
        exact absurd ((congrArg u.keyOf (Option.some.inj heq)).symm.trans
          ((hu.keyOf_fix d row₀).trans hkey₀)).symm hd
      · intro heq
        exact absurd ((congrArg u.keyOf (Option.some.inj heq)).symm.trans hkey₀).symm hd
    · rfl

theorem Done.step : u.Done t (defs ++ [d]) (u.one t s d) := by
  unfold one
  split
  · exact h.make hu hkey hlabel ‹_› _
  · rename_i id row hfound
    obtain ⟨hrow, hrowkey⟩ := lookup_some hfound
    exact h.keep hu hkey hlabel hrow hrowkey _

end Step

/-- Definitions with distinct keys and labels all have their rows in the end. -/
theorem done_all (hu : u.Lawful) (ht : KeysUnique u.keyOf t) {nextId : Nat}
    (hbelow : t.Below nextId) (report : τ) (hkeys : (defs.map u.key).Nodup)
    (hlabels : (defs.map u.label).Nodup) : u.Done t defs (u.all t nextId report defs) := by
  induction defs using List.reverseRecOn with
  | nil => exact ⟨ht, hbelow, hbelow, nofun, fun _ _ _ => Iff.rfl⟩
  | append_singleton defs d ih =>
      rw [List.map_append, List.nodup_append] at hkeys hlabels
      rw [all, List.foldl_append]
      refine (ih hkeys.1 hlabels.1).step hu ?_ ?_
      · exact fun d' hd' => hkeys.2.2 _ (List.mem_map_of_mem hd') _ List.mem_cons_self
      · exact fun d' hd' => hlabels.2.2 _ (List.mem_map_of_mem hd') _ List.mem_cons_self

/-- The reports follow the rows that were there at first. -/
theorem report_all (nextId : Nat) (report : τ) :
    (u.all t nextId report defs).report = defs.foldl (fun report d =>
      u.note d ((lookup u.keyOf t (u.key d)).map (·.2)) report) report := by
  induction defs using List.reverseRecOn with
  | nil => rfl
  | append_singleton defs d ih =>
      rw [all, List.foldl_append, List.foldl_append, ← ih]
      show (u.one t _ d).report = u.note d _ _
      unfold one
      split
      · rename_i hnone
        rw [hnone]
        rfl
      · rename_i hsome
        rw [hsome]
        rfl

section Done

variable (hu : u.Lawful) (h : u.Done t defs s)

include h

/-- The row of a definition that was there is set right under its number. -/
theorem Done.find?_fix (ht : KeysUnique u.keyOf t) (hd : d ∈ defs) {id : Nat} {row : ρ}
    (hrow : t.find? id = some row) (hkey : u.keyOf row = u.key d) :
    s.table.find? id = some (u.fix d row) := by
  obtain ⟨j, q, -, hq, hsettled⟩ := h.rows d hd
  cases hsettled with
  | kept hrow' hkey' =>
      obtain rfl := ht _ _ _ _ hrow hrow' (hkey.trans hkey'.symm)
      obtain rfl := Option.some.inj (hrow.symm.trans hrow')
      exact hq
  | made hnone _ => exact absurd hkey (lookup_none hnone hrow)

/-- Rows stay, each as it was or set right. -/
theorem Done.stays (ht : KeysUnique u.keyOf t) {id : Nat} {row : ρ} (hrow : t.find? id = some row) :
    ∃ row', s.table.find? id = some row' ∧ (row' = row ∨ ∃ d ∈ defs, row' = u.fix d row) := by
  by_cases hd : ∃ d ∈ defs, u.key d = u.keyOf row
  · obtain ⟨d, hd, hkey⟩ := hd
    exact ⟨_, h.find?_fix ht hd hrow hkey.symm, .inr ⟨d, hd, rfl⟩⟩
  · exact ⟨row, (h.others id row fun d hd' hkey => hd ⟨d, hd', hkey⟩).mpr hrow, .inl rfl⟩

include hu

/-- The row of a definition is right, and noted under its label. -/
theorem Done.right (hd : d ∈ defs) : ∃ id row, s.ids (u.label d) = some id ∧
    s.table.find? id = some row ∧ u.keyOf row = u.key d ∧ u.differs d row = false := by
  obtain ⟨id, row, hid, hrow, hsettled⟩ := h.rows d hd
  refine ⟨id, row, hid, hrow, hsettled.key hu, ?_⟩
  cases hsettled with
  | kept _ _ => exact hu.fixed d _
  | made _ _ => exact hu.made d

/-- Another time the rows are noted under the same numbers. -/
theorem Done.ids_eq {t' : Table ρ} {s' : Upserting ρ τ} (h' : u.Done t' defs s')
    (hsub : ∀ id row, s'.table.find? id = some row → s.table.find? id = some row) (hd : d ∈ defs) :
    s'.ids (u.label d) = s.ids (u.label d) := by
  obtain ⟨id, row, hid, hrow, hkey, -⟩ := h.right hu hd
  obtain ⟨id', row', hid', hrow', hkey', -⟩ := h'.right hu hd
  rw [hid, hid', h.unique id' id row' row (hsub id' row' hrow') hrow (hkey'.trans hkey.symm)]

end Done

/-- What no report changes stays. -/
theorem report_keeps (nextId : Nat) {P : τ → Prop} {report : τ} (h : P report)
    (hnote : ∀ d found report, P report → P (u.note d found report)) :
    P (u.all t nextId report defs).report := by
  rw [report_all]
  exact List.foldlRecOn defs _ h fun report hr d _ => hnote d _ report hr

/-- Where every row is there and right, nothing is written or reported. -/
theorem all_of_right (hu : u.Lawful) (nextId : Nat) (report : τ)
    (hright : ∀ d ∈ defs, ∃ x, lookup u.keyOf t (u.key d) = some x ∧ u.differs d x.2 = false) :
    (u.all t nextId report defs).table = t ∧ (u.all t nextId report defs).nextId = nextId ∧
      (u.all t nextId report defs).report = report := by
  induction defs using List.reverseRecOn with
  | nil => exact ⟨rfl, rfl, rfl⟩
  | append_singleton defs d ih =>
      obtain ⟨htable, hnext, hreport⟩ := ih fun d' hd' => hright d' (List.mem_append_left _ hd')
      obtain ⟨x, hx, hdiff⟩ := hright d (List.mem_append_right _ List.mem_cons_self)
      have hone : u.all t nextId report (defs ++ [d]) =
          u.one t (u.all t nextId report defs) d := by
        rw [all, List.foldl_append]
        rfl
      rw [hone]
      simp only [one, hx, hdiff]
      exact ⟨htable, hnext, by rw [hreport, hu.quiet d x.2 report hdiff]⟩

end Upsert

end Wbme.Lib

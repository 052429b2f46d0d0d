import Mathlib.Data.List.Nodup
import Mathlib.Data.List.Flatten
import Mathlib.Order.Lattice

/-! # Offset paging

Rows are read page by page, each page by a query of its own that sorts the rows and skips
those of the pages before. Rows that tie may stand in another order for every query. The
pages together are the rows exactly when no tie reaches across the border of two pages.
-/

namespace Wbme.Lib

/-- An order with ties: any two rows compare, and comparing is transitive. -/
structure TotalPreorder {α : Type} (le : α → α → Bool) : Prop where
  total : ∀ a b, le a b = true ∨ le b a = true
  trans : ∀ a b c, le a b = true → le b c = true → le a c = true

namespace Paging

section Keys

variable {α κ : Type}

/-- A comparison by one key: no two rows come before each other, and what comes before a row
comes before any third row or behind it. -/
structure StrictWeak (lt : α → α → Bool) : Prop where
  asymm : ∀ a b, lt a b = true → lt b a = false
  split : ∀ a b c, lt a c = true → lt a b = true ∨ lt b c = true

theorem strictWeak_of_key [LinearOrder κ] (key : α → κ) :
    StrictWeak fun a b => decide (key a < key b) where
  asymm a b h := by
    rw [decide_eq_true_eq] at h
    exact decide_eq_false (lt_asymm h)
  split a b c h := by
    simp only [decide_eq_true_eq] at h ⊢
    exact (lt_or_ge (key a) (key b)).imp id fun hle => lt_of_le_of_lt hle h

theorem StrictWeak.flip {lt : α → α → Bool} (h : StrictWeak lt) : StrictWeak fun a b => lt b a where
  asymm a b hab := h.asymm b a hab
  split a b c hac := (h.split c b a hac).symm

/-- The first key that tells two rows apart decides. -/
def lexLe : List (α → α → Bool) → α → α → Bool
  | [], _, _ => true
  | lt :: rest, a, b => lt a b || (!lt b a && lexLe rest a b)

theorem totalPreorder_lexLe {lts : List (α → α → Bool)} (h : ∀ lt ∈ lts, StrictWeak lt) :
    TotalPreorder (lexLe lts) := by
  induction lts with
  | nil => exact ⟨fun _ _ => .inl rfl, fun _ _ _ _ _ => rfl⟩
  | cons lt rest ih =>
      have hlt := h lt List.mem_cons_self
      have hrest := ih fun l hl => h l (List.mem_cons_of_mem _ hl)
      constructor
      · intro a b
        have htotal := hrest.total a b
        simp only [lexLe, Bool.or_eq_true, Bool.and_eq_true, Bool.not_eq_true']
        cases hab : lt a b with
        | true => simp
        | false =>
            cases hba : lt b a with
            | true => simp
            | false => simpa using htotal
      · intro a b c hab hbc
        simp only [lexLe, Bool.or_eq_true, Bool.and_eq_true, Bool.not_eq_true'] at hab hbc ⊢
        have htrans := hrest.trans a b c
        have hsplit := hlt.split
        have hasymm := hlt.asymm
        grind

end Keys

variable {α : Type} {le : α → α → Bool}

theorem refl_of (order : TotalPreorder le) (a : α) : le a a = true :=
  (order.total a a).elim id id

/-- One of the ways in which a query may order the rows. -/
structure IsOrdered (le : α → α → Bool) (rows ordered : List α) : Prop where
  perm : ordered.Perm rows
  sorted : ordered.Pairwise fun a b => le a b = true

/-- Skip the pages before, and take one. -/
def page (size i : Nat) (ordered : List α) : List α := (ordered.drop (i * size)).take size

/-- The pages one after another, where `choice i` is the order of the query of page `i`. -/
def pages (size : Nat) (choice : Nat → List α) (count : Nat) : List α :=
  (List.range count).flatMap fun i => page size i (choice i)

/-- The rows that come before `x` in every order. -/
def before (le : α → α → Bool) (rows : List α) (x : α) : Nat := rows.countP fun y => !le x y

/-- The rows that come before `x` in some order, with `x` itself. -/
def upTo (le : α → α → Bool) (rows : List α) (x : α) : Nat := rows.countP fun y => le y x

/-- The rows that tie with `x` reach across the border after `k` rows. -/
def Straddles (le : α → α → Bool) (rows : List α) (x : α) (k : Nat) : Prop :=
  before le rows x < k ∧ k < upTo le rows x

instance (le : α → α → Bool) (rows : List α) (x : α) (k : Nat) :
    Decidable (Straddles le rows x k) := inferInstanceAs (Decidable (_ ∧ _))

/-! ## Where a row can stand -/

theorem before_eq {rows ordered : List α} (h : IsOrdered le rows ordered) (x : α) :
    before le rows x = ordered.countP fun y => !le x y := (h.perm.countP_eq _).symm

theorem upTo_eq {rows ordered : List α} (h : IsOrdered le rows ordered) (x : α) :
    upTo le rows x = ordered.countP fun y => le y x := (h.perm.countP_eq _).symm

/-- A row stands behind those before it, and not behind those that can only follow it. -/
theorem position_bounds (order : TotalPreorder le) {rows first rest : List α} {x : α}
    (h : IsOrdered le rows (first ++ x :: rest)) :
    before le rows x ≤ first.length ∧ first.length < upTo le rows x := by
  obtain ⟨_, hrest, hcross⟩ := List.pairwise_append.mp h.sorted
  constructor
  · have hzero : (x :: rest).countP (fun y => !le x y) = 0 := by
      rw [List.countP_eq_zero]
      intro y hy
      rcases List.mem_cons.mp hy with rfl | hy
      · simp [refl_of order]
      · simp [(List.pairwise_cons.mp hrest).1 y hy]
    rw [before_eq h, List.countP_append, hzero]
    exact List.countP_le_length
  · have hall : first.countP (fun y => le y x) = first.length := by
      rw [List.countP_eq_length]
      intro y hy
      exact hcross y hy x List.mem_cons_self
    have hself : (x :: rest).countP (fun y => le y x) = rest.countP (fun y => le y x) + 1 :=
      List.countP_cons_of_pos (refl_of order x)
    rw [upTo_eq h, List.countP_append, hall, hself]
    omega

/-! ## Pages without ties across their borders -/

/-- Where no tie reaches across, the rows in front of a border are always the same. -/
theorem perm_take (order : TotalPreorder le) {rows ordered : List α}
    (h : IsOrdered le rows ordered) {k : Nat} (hk : ∀ x ∈ rows, ¬ Straddles le rows x k) :
    (ordered.take k).Perm (rows.filter fun x => before le rows x < k) := by
  have hin : ∀ x ∈ ordered.take k, decide (before le rows x < k) = true := by
    intro x hx
    obtain ⟨first, rest, heq⟩ := List.append_of_mem hx
    have hsplit : ordered = first ++ x :: (rest ++ ordered.drop k) := by
      have := List.take_append_drop k ordered
      rw [heq, List.append_assoc] at this
      exact this.symm
    have hlen : first.length < k := by
      have := congrArg List.length heq
      rw [List.length_take, List.length_append, List.length_cons] at this
      omega
    have := (position_bounds order (hsplit ▸ h)).1
    rw [decide_eq_true_eq]
    omega
  have hout : ∀ x ∈ ordered.drop k, ¬ decide (before le rows x < k) = true := by
    intro x hx
    obtain ⟨first, rest, heq⟩ := List.append_of_mem hx
    have hsplit : ordered = (ordered.take k ++ first) ++ x :: rest := by
      rw [List.append_assoc, ← heq, List.take_append_drop]
    have hlen : k ≤ (ordered.take k ++ first).length := by
      have := List.length_pos_of_mem hx
      rw [List.length_drop] at this
      rw [List.length_append, List.length_take]
      omega
    have hlast := (position_bounds order (hsplit ▸ h)).2
    have hmem : x ∈ rows := h.perm.mem_iff.mp (List.mem_of_mem_drop hx)
    rw [decide_eq_true_eq]
    intro hbefore
    exact hk x hmem ⟨hbefore, by omega⟩
  have htake : ordered.filter (fun x => decide (before le rows x < k)) = ordered.take k := by
    conv => lhs; rw [← List.take_append_drop k ordered]
    rw [List.filter_append, List.filter_eq_self.mpr hin, List.filter_eq_nil_iff.mpr hout,
      List.append_nil]
  rw [← htake]
  exact h.perm.filter _

theorem take_succ_page (size i : Nat) (ordered : List α) :
    ordered.take ((i + 1) * size) = ordered.take (i * size) ++ page size i ordered := by
  rw [Nat.succ_mul, page, List.take_add]

/-- Pages that all cut one list are its first rows. -/
theorem pages_const (size : Nat) (ordered : List α) (count : Nat) :
    pages size (fun _ => ordered) count = ordered.take (count * size) := by
  induction count with
  | zero => simp [pages]
  | succ count ih =>
      rw [take_succ_page, ← ih]
      simp [pages, List.range_succ]

/-- Pages whose borders no tie reaches across are the rows, each once. -/
theorem perm_pages (order : TotalPreorder le) {rows : List α} {size count : Nat}
    {choice : Nat → List α} (hchoice : ∀ i, IsOrdered le rows (choice i))
    (hties : ∀ x ∈ rows, ∀ i, ¬ Straddles le rows x (i * size))
    (hcount : rows.length ≤ count * size) : (pages size choice count).Perm rows := by
  have hfirst : ∀ m, (pages size choice m).Perm
      (rows.filter fun x => before le rows x < m * size) := by
    intro m
    induction m with
    | zero => simp [pages]
    | succ m ih =>
        have hlow := perm_take order (hchoice m) fun x hx => hties x hx m
        have hhigh := perm_take order (hchoice m) fun x hx => hties x hx (m + 1)
        have hpages : pages size choice (m + 1) =
            pages size choice m ++ page size m (choice m) := by
          simp [pages, List.range_succ]
        rw [hpages]
        refine List.Perm.trans ?_ hhigh
        rw [take_succ_page]
        exact (ih.trans hlow.symm).append_right _
  refine (hfirst count).trans ?_
  have hall : ∀ x ∈ rows, decide (before le rows x < count * size) = true := by
    intro x hx
    have hlt : before le rows x < rows.length := by
      refine Nat.lt_of_le_of_ne List.countP_le_length ?_
      intro heq
      have := List.countP_eq_length.mp heq x hx
      simp [refl_of order] at this
    rw [decide_eq_true_eq]
    omega
  rw [List.filter_eq_self.mpr hall]

/-! ## A tie across a border -/

theorem isOrdered_mergeSort (order : TotalPreorder le) (rows : List α) :
    IsOrdered le rows (rows.mergeSort le) :=
  ⟨List.mergeSort_perm rows le, List.pairwise_mergeSort order.trans
    (fun a b => by simpa using order.total a b) rows⟩

/-- Two neighbours that tie may stand the other way round. -/
theorem IsOrdered.swap {rows first rest : List α} {p q : α}
    (h : IsOrdered le rows (first ++ p :: q :: rest)) (hqp : le q p = true) :
    IsOrdered le rows (first ++ q :: p :: rest) where
  perm := ((List.Perm.swap p q rest).append_left first).trans h.perm
  sorted := by
    obtain ⟨hfirst, htail, hcross⟩ := List.pairwise_append.mp h.sorted
    obtain ⟨hp, htail⟩ := List.pairwise_cons.mp htail
    obtain ⟨hq, hrest⟩ := List.pairwise_cons.mp htail
    refine List.pairwise_append.mpr ⟨hfirst, ?_, ?_⟩
    · refine List.pairwise_cons.mpr ⟨?_, List.pairwise_cons.mpr ⟨?_, hrest⟩⟩
      · intro y hy
        rcases List.mem_cons.mp hy with rfl | hy
        · exact hqp
        · exact hq y hy
      · intro y hy
        exact hp y (List.mem_cons_of_mem _ hy)
    · intro y hy z hz
      refine hcross y hy z ?_
      simp only [List.mem_cons] at hz ⊢
      grind

/-- The rows on both sides of a border that a tie reaches across tie with each other. -/
theorem neighbours_tie (order : TotalPreorder le) {rows first rest : List α} {x p q : α}
    (h : IsOrdered le rows (first ++ p :: q :: rest))
    (hx : Straddles le rows x (first.length + 1)) : le q p = true := by
  obtain ⟨_, htail, hcross⟩ := List.pairwise_append.mp h.sorted
  obtain ⟨hp, htail⟩ := List.pairwise_cons.mp htail
  have hxp : le x p = true := by
    -- otherwise the first rows and `p` all come before `x`
    by_contra hnot
    have hlow : ∀ y ∈ first ++ [p], (!le x y) = true := by
      intro y hy
      have hyp : le y p = true := by
        rcases List.mem_append.mp hy with hy | hy
        · exact hcross y hy p List.mem_cons_self
        · rw [List.mem_singleton.mp hy]
          exact refl_of order p
      by_contra hle
      have hle : le x y = true := by simpa using hle
      exact hnot (order.trans x y p hle hyp)
    have hcount : (first ++ [p]).countP (fun y => !le x y) = first.length + 1 := by
      rw [List.countP_eq_length.mpr hlow, List.length_append, List.length_singleton]
    have hbefore := hx.1
    have hsplit : first ++ p :: q :: rest = (first ++ [p]) ++ q :: rest := by simp
    rw [before_eq h, hsplit, List.countP_append, hcount] at hbefore
    omega
  have hqx : le q x = true := by
    -- otherwise only the first rows and `p` can come before `x`
    by_contra hnot
    have hhigh : ∀ y ∈ q :: rest, ¬ le y x = true := by
      intro y hy hle
      have hqy : le q y = true := by
        rcases List.mem_cons.mp hy with rfl | hy
        · exact refl_of order _
        · exact (List.pairwise_cons.mp htail).1 y hy
      exact hnot (order.trans q y x hqy hle)
    have hcount : (q :: rest).countP (fun y => le y x) = 0 := List.countP_eq_zero.mpr hhigh
    have hupTo := hx.2
    have hsplit : first ++ p :: q :: rest = (first ++ [p]) ++ q :: rest := by simp
    have hlen : (first ++ [p]).countP (fun y => le y x) ≤ (first ++ [p]).length :=
      List.countP_le_length
    rw [upTo_eq h, hsplit, List.countP_append, hcount] at hupTo
    rw [List.length_append, List.length_singleton] at hlen
    omega
  exact order.trans q x p hqx hxp

theorem mem_page {size i j : Nat} {ordered : List α} {x : α} (hj : j < size)
    (hx : ordered[i * size + j]? = some x) : x ∈ page size i ordered := by
  refine List.mem_iff_getElem?.mpr ⟨j, ?_⟩
  rw [page, List.getElem?_take_of_lt hj, List.getElem?_drop, hx]

/-- A tie that reaches across a border can make the pages repeat a row. -/
theorem not_perm_pages (order : TotalPreorder le) {rows : List α} (distinct : rows.Nodup)
    {size count i : Nat} {x : α} (hcount : rows.length ≤ count * size)
    (hx : Straddles le rows x (i * size)) :
    ∃ choice : Nat → List α, (∀ j, IsOrdered le rows (choice j)) ∧
      ¬ (pages size choice count).Perm rows := by
  have hsorted := isOrdered_mergeSort order rows
  have hlast : i * size < rows.length := Nat.lt_of_lt_of_le hx.2 List.countP_le_length
  have hpos : 0 < i * size := Nat.lt_of_le_of_lt (Nat.zero_le _) hx.1
  obtain ⟨i, rfl⟩ : ∃ j, i = j + 1 := Nat.exists_eq_succ_of_ne_zero fun h => by
    rw [h, Nat.zero_mul] at hpos
    omega
  have hsize : 0 < size := Nat.pos_of_ne_zero fun h => by
    rw [h, Nat.mul_zero] at hpos
    omega
  have hi : i + 1 < count := by
    by_contra hge
    have := Nat.mul_le_mul_right size (Nat.le_of_not_lt hge)
    omega
  -- the last row in front of the border, and the first one behind it
  have hlength : (i + 1) * size < (rows.mergeSort le).length := by rwa [List.length_mergeSort]
  obtain ⟨first, p, q, rest, hsplit, hfirst⟩ : ∃ first p q rest,
      rows.mergeSort le = first ++ p :: q :: rest ∧ first.length + 1 = (i + 1) * size := by
    refine ⟨(rows.mergeSort le).take ((i + 1) * size - 1),
      (rows.mergeSort le)[(i + 1) * size - 1], (rows.mergeSort le)[(i + 1) * size],
      (rows.mergeSort le).drop ((i + 1) * size + 1), ?_, ?_⟩
    · have h₁ := List.drop_eq_getElem_cons (l := rows.mergeSort le) hlength
      have h₂ := List.drop_eq_getElem_cons (l := rows.mergeSort le)
        (i := (i + 1) * size - 1) (by omega)
      rw [Nat.sub_add_cancel hpos, h₁] at h₂
      rw [← h₂, List.take_append_drop]
    · rw [List.length_take]
      omega
  rw [hsplit] at hsorted
  have htie : le q p = true := neighbours_tie order hsorted (hfirst ▸ hx)
  have hswapped := hsorted.swap htie
  refine ⟨fun j => if j = i + 1 then first ++ q :: p :: rest else first ++ p :: q :: rest,
    ?_, ?_⟩
  · intro j
    dsimp only
    split
    · exact hswapped
    · exact hsorted
  · intro hperm
    have hnodup := hperm.nodup_iff.mpr distinct
    have hdisjoint := (List.nodup_flatMap.mp hnodup).2
    have hfront : first.length = i * size + (size - 1) := by
      rw [Nat.succ_mul] at hfirst
      omega
    have hp : p ∈ page size i (first ++ p :: q :: rest) := by
      refine mem_page (j := size - 1) (by omega) ?_
      rw [← hfront]
      simp
    have hp' : p ∈ page size (i + 1) (first ++ q :: p :: rest) := by
      refine mem_page (j := 0) hsize ?_
      rw [Nat.add_zero, ← hfirst]
      simp
    have := (List.pairwise_iff_getElem.mp hdisjoint) i (i + 1) (by simpa using Nat.lt_of_succ_lt hi)
      (by simpa using hi) (Nat.lt_succ_self i)
    simp only [List.getElem_range, Function.onFun] at this
    rw [if_neg (Nat.ne_of_lt (Nat.lt_succ_self i)), if_pos trivial] at this
    exact this hp hp'

/-- Whatever the queries choose, the pages are the rows, exactly when no tie reaches across a
border. -/
theorem perm_pages_iff (order : TotalPreorder le) {rows : List α} (distinct : rows.Nodup)
    {size count : Nat} (hcount : rows.length ≤ count * size) :
    (∀ choice : Nat → List α, (∀ i, IsOrdered le rows (choice i)) →
        (pages size choice count).Perm rows) ↔
      ∀ x ∈ rows, ∀ i, ¬ Straddles le rows x (i * size) := by
  constructor
  · intro h x _ i hx
    obtain ⟨choice, hchoice, hnot⟩ := not_perm_pages order distinct hcount hx
    exact hnot (h choice hchoice)
  · intro h choice hchoice
    exact perm_pages order hchoice h hcount

end Paging

/-! ## Paging by a key

Each page starts behind the key of the last row of the page before, so ties play no part. -/

namespace Keyset

variable {α : Type}

/-- The first rows behind a key; zero asks for the first rows of all. -/
def batch (key : α → Nat) (size : Nat) (rows : List α) (last : Nat) : List α :=
  (rows.filter fun a => last = 0 || decide (last < key a)).take size

/-- Read batch after batch until one is empty or not full. -/
def readAll (key : α → Nat) (size : Nat) (rows : List α) : Nat → Nat → Option (List α)
  | 0, _ => none
  | fuel + 1, last =>
      match (batch key size rows last).getLast? with
      | none => some []
      | some a =>
          if (batch key size rows last).length < size then some (batch key size rows last)
          else (readAll key size rows fuel (key a)).map (batch key size rows last ++ ·)

/-- Behind the rows that were read, a batch is the first of the rest. -/
theorem batch_eq {key : α → Nat} (size : Nat) {front rest : List α} {last : Nat}
    (hfront : ∀ a ∈ front, last ≠ 0 ∧ key a ≤ last) (hrest : ∀ a ∈ rest, last = 0 ∨ last < key a) :
    batch key size (front ++ rest) last = rest.take size := by
  have hnone : front.filter (fun a => last = 0 || decide (last < key a)) = [] := by
    rw [List.filter_eq_nil_iff]
    intro a ha
    have h := hfront a ha
    simp only [Bool.or_eq_true, decide_eq_true_eq]
    omega
  have hall : rest.filter (fun a => last = 0 || decide (last < key a)) = rest := by
    rw [List.filter_eq_self]
    intro a ha
    simpa using hrest a ha
  rw [batch, List.filter_append, hnone, hall, List.nil_append]

/-- What is read behind the rows that were read is the rest. -/
theorem readAll_rest {key : α → Nat} {size : Nat} (hsize : 2 ≤ size) {fuel : Nat}
    {front rest : List α} {last : Nat} (hrows : (front ++ rest).Pairwise fun a b => key a < key b)
    (hfront : ∀ a ∈ front, last ≠ 0 ∧ key a ≤ last) (hrest : ∀ a ∈ rest, last = 0 ∨ last < key a)
    (hfuel : rest.length < fuel) : readAll key size (front ++ rest) fuel last = some rest := by
  induction fuel generalizing front rest last with
  | zero => omega
  | succ fuel ih =>
      rw [readAll, batch_eq size hfront hrest]
      cases hlast : (rest.take size).getLast? with
      | none =>
          rw [List.getLast?_eq_none_iff, List.take_eq_nil_iff] at hlast
          rcases hlast with h | h
          · omega
          · rw [h]
      | some a =>
          show (if (rest.take size).length < size then some (rest.take size) else _) = _
          rcases Nat.lt_or_ge (rest.take size).length size with hshort | hfull
          · rw [if_pos hshort, List.take_of_length_le]
            rw [List.length_take] at hshort
            omega
          · rw [if_neg (Nat.not_lt.mpr hfull)]
            obtain ⟨init, htake⟩ := List.getLast?_eq_some_iff.mp hlast
            have hsplit : front ++ rest = (front ++ (init ++ [a])) ++ rest.drop size := by
              rw [← htake, List.append_assoc, List.take_append_drop]
            have hordered := hrows
            rw [hsplit, List.pairwise_append] at hordered
            obtain ⟨hread, -, hnext⟩ := hordered
            have hmem : a ∈ front ++ (init ++ [a]) := by simp
            -- a full batch has a row in front of its last one, so that one's key is not zero
            have hlower : ∀ b ∈ init, key b < key a := by
              rw [List.pairwise_append, List.pairwise_append] at hread
              intro b hb
              exact hread.2.1.2.2 b hb a List.mem_cons_self
            have hpos : key a ≠ 0 := by
              cases init with
              | nil =>
                  rw [htake] at hfull
                  simp only [List.nil_append, List.length_singleton] at hfull
                  omega
              | cons b init =>
                  have hb := hlower b List.mem_cons_self
                  omega
            have hrec : readAll key size (front ++ rest) fuel (key a) =
                some (rest.drop size) := by
              rw [hsplit]
              apply ih
              · rw [← hsplit]
                exact hrows
              · intro b hb
                refine ⟨hpos, ?_⟩
                rcases List.mem_append.mp hb with hb | hb
                · have hba : (front ++ (init ++ [a])).Pairwise fun a b => key a < key b := hread
                  exact Nat.le_of_lt ((List.pairwise_append.mp hba).2.2 b hb a (by simp))
                · rcases List.mem_append.mp hb with hb | hb
                  · exact Nat.le_of_lt (hlower b hb)
                  · rw [List.mem_singleton.mp hb]
              · intro b hb
                exact Or.inr (hnext a hmem b hb)
              · rw [List.length_take] at hfull
                rw [List.length_drop]
                omega
            rw [hrec, Option.map_some, List.take_append_drop]

/-- Reading batch after batch reads all rows. -/
theorem readAll_eq {key : α → Nat} {size : Nat} (hsize : 2 ≤ size) {rows : List α}
    (hrows : rows.Pairwise fun a b => key a < key b) :
    readAll key size rows (rows.length + 1) 0 = some rows := by
  have hall : readAll key size ([] ++ rows) (rows.length + 1) 0 = some rows :=
    readAll_rest hsize hrows (by simp) (by simp) (Nat.lt_succ_self _)
  exact hall

end Keyset

end Wbme.Lib

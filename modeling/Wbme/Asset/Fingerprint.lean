import Wbme.Lib.JsonText
import Wbme.Lib.StableSort
import Mathlib.Algebra.Ring.Nat
import Mathlib.Data.List.Perm.Basic

/-! # The fingerprint of a payload

A payload is brought into a canonical form before its text is hashed: members of objects are
sorted by their keys, items of arrays by their texts. Both sorts go by the collation of the
runtime, for which different texts may tie.
-/

namespace Wbme.Asset

open Lib Lib.JsValue

variable {ν : Type}

structure FingerprintRuntime (ν : Type) where
  /-- The text of a number. -/
  numberText : ν → String
  localeCompare : String → String → Ordering
  /-- SHA-256 of a text, as hexadecimal digits. -/
  sha256 : String → String

/-- Numbers and hashes are told apart, and the collation is a consistent comparison. -/
structure FingerprintRuntime.Lawful (rt : FingerprintRuntime ν) : Prop where
  numberText : NumberText rt.numberText
  localeCompare : Std.TransCmp rt.localeCompare
  sha256 : Function.Injective rt.sha256

/-! ## The canonical form -/

/-- The number of an array index: these keys come first in an object, in ascending order. -/
def arrayIndex (key : String) : Option Nat :=
  key.toNat?.filter fun n => toString n == key && n < 2 ^ 32 - 1

def fromEntries (entries : List (String × JsValue ν)) : List (String × Option (JsValue ν)) :=
  ((entries.filter fun f => (arrayIndex f.1).isSome).insertionSort
      (fun f g => (arrayIndex f.1).getD 0 ≤ (arrayIndex g.1).getD 0) ++
    entries.filter fun f => (arrayIndex f.1).isNone).map fun f => (f.1, some f.2)

section Canonical

variable (rt : FingerprintRuntime ν)

/-- Items are compared by their texts. -/
def itemLe (a b : JsValue ν) : Prop :=
  (rt.localeCompare (stringify rt.numberText a) (stringify rt.numberText b)).isLE = true

def keyLe (f g : String × JsValue ν) : Prop := (rt.localeCompare f.1 g.1).isLE = true

instance : DecidableRel (itemLe rt) := fun _ _ => inferInstanceAs (Decidable (_ = true))

instance : DecidableRel (keyLe rt) := fun _ _ => inferInstanceAs (Decidable (_ = true))

mutual

def canonicalize : JsValue ν → JsValue ν
  | .null => .null
  | .bool b => .bool b
  | .num n => .num n
  | .str s => .str s
  | .arr items => .arr ((canonicalizeItems items).insertionSort (itemLe rt))
  | .obj fields => .obj (fromEntries ((canonicalizeFields fields).insertionSort (keyLe rt)))

def canonicalizeItems : List (JsValue ν) → List (JsValue ν)
  | [] => []
  | item :: items => canonicalize item :: canonicalizeItems items

/-- The members that are not undefined. -/
def canonicalizeFields : List (String × Option (JsValue ν)) → List (String × JsValue ν)
  | [] => []
  | field :: fields => (canonicalizeField field).toList ++ canonicalizeFields fields

def canonicalizeField : String × Option (JsValue ν) → Option (String × JsValue ν)
  | (key, member) => canonicalizeMember key member

def canonicalizeMember (key : String) : Option (JsValue ν) → Option (String × JsValue ν)
  | none => none
  | some value => some (key, canonicalize value)

end

def fingerprintPayload (payload : JsValue ν) : String :=
  rt.sha256 (stringify rt.numberText (canonicalize rt payload))

attribute [grind =] canonicalize canonicalizeItems canonicalizeFields canonicalizeField
  canonicalizeMember

end Canonical

/-! ## Equal up to order -/

/-- Payloads that differ in the order of members, the order of items and undefined members. -/
inductive Same : JsValue ν → JsValue ν → Prop where
  | refl (v : JsValue ν) : Same v v
  | symm {v w : JsValue ν} (h : Same v w) : Same w v
  | trans {u v w : JsValue ν} (h : Same u v) (h' : Same v w) : Same u w
  | items {items items' : List (JsValue ν)} (h : items.Perm items') : Same (.arr items) (.arr items')
  | item {x y : JsValue ν} (before after : List (JsValue ν)) (h : Same x y) :
      Same (.arr (before ++ x :: after)) (.arr (before ++ y :: after))
  | members {fields fields' : List (String × Option (JsValue ν))} (h : fields.Perm fields') :
      Same (.obj fields) (.obj fields')
  | member {x y : JsValue ν} (before : List (String × Option (JsValue ν))) (key : String)
      (after : List (String × Option (JsValue ν))) (h : Same x y) :
      Same (.obj (before ++ (key, some x) :: after)) (.obj (before ++ (key, some y) :: after))
  | undefined (before : List (String × Option (JsValue ν))) (key : String)
      (after : List (String × Option (JsValue ν))) :
      Same (.obj (before ++ (key, none) :: after)) (.obj (before ++ after))

/-- The members of an object that are not undefined. -/
def defined (fields : List (String × Option (JsValue ν))) : List (String × JsValue ν) :=
  fields.filterMap fun f => f.2.map fun v => (f.1, v)

def asMembers (entries : List (String × JsValue ν)) : List (String × Option (JsValue ν)) :=
  entries.map fun f => (f.1, some f.2)

variable {fields : List (String × Option (JsValue ν))}

theorem mem_defined {key : String} {x : JsValue ν} :
    (key, x) ∈ defined fields ↔ (key, some x) ∈ fields := by
  rw [defined, List.mem_filterMap]
  constructor
  · intro ⟨⟨k, m⟩, hmem, heq⟩
    cases m with
    | none => cases heq
    | some v =>
        cases heq
        exact hmem
  · intro hmem
    exact ⟨(key, some x), hmem, rfl⟩

theorem defined_append (fields more : List (String × Option (JsValue ν))) :
    defined (fields ++ more) = defined fields ++ defined more := List.filterMap_append

theorem defined_asMembers (entries : List (String × JsValue ν)) :
    defined (asMembers entries) = entries := by
  induction entries with
  | nil => rfl
  | cons f entries ih =>
      show f :: defined (asMembers entries) = f :: entries
      rw [ih]

theorem same_defined (fields : List (String × Option (JsValue ν))) :
    Same (.obj fields) (.obj (asMembers (defined fields))) := by
  have hbehind : ∀ (later done : List (String × Option (JsValue ν))),
      Same (.obj (done ++ later)) (.obj (done ++ asMembers (defined later))) := by
    intro later
    induction later with
    | nil =>
        intro done
        exact Same.refl _
    | cons f later ih =>
        intro done
        obtain ⟨key, m⟩ := f
        cases m with
        | none => exact (Same.undefined done key later).trans (ih done)
        | some x =>
            have hnext := ih (done ++ [(key, some x)])
            rw [List.append_assoc, List.append_assoc] at hnext
            exact hnext
  exact hbehind fields []

theorem same_arr {items items' : List (JsValue ν)} (h : List.Forall₂ Same items items') :
    Same (.arr items) (.arr items') := by
  have hbehind : ∀ (done : List (JsValue ν)), Same (.arr (done ++ items)) (.arr (done ++ items')) := by
    induction h with
    | nil =>
        intro done
        exact Same.refl _
    | @cons x y xs ys hxy _ ih =>
        intro done
        have hnext := ih (done ++ [y])
        rw [List.append_assoc, List.append_assoc] at hnext
        exact (Same.item done xs hxy).trans hnext
  exact hbehind []

variable (entries : List (String × JsValue ν))

theorem same_obj (f : JsValue ν → JsValue ν) (h : ∀ e ∈ entries, Same e.2 (f e.2)) :
    Same (.obj (asMembers entries)) (.obj (asMembers (entries.map fun e => (e.1, f e.2)))) := by
  have hbehind : ∀ (later : List (String × JsValue ν)) (done : List (String × Option (JsValue ν))),
      (∀ e ∈ later, Same e.2 (f e.2)) → Same (.obj (done ++ asMembers later))
        (.obj (done ++ asMembers (later.map fun e => (e.1, f e.2)))) := by
    intro later
    induction later with
    | nil =>
        intro done _
        exact Same.refl _
    | cons e later ih =>
        intro done hall
        have hnext := ih (done ++ [(e.1, some (f e.2))])
          fun e' he' => hall e' (List.mem_cons_of_mem e he')
        rw [List.append_assoc, List.append_assoc] at hnext
        exact (Same.member done e.1 (asMembers later) (hall e List.mem_cons_self)).trans hnext
  exact hbehind entries [] h

section Order

variable (rt : FingerprintRuntime ν)

theorem canonicalizeItems_eq (items : List (JsValue ν)) :
    canonicalizeItems rt items = items.map (canonicalize rt) := by
  induction items with
  | nil => rw [canonicalizeItems, List.map_nil]
  | cons item items ih => rw [canonicalizeItems, ih, List.map_cons]

theorem canonicalizeFields_eq (fields : List (String × Option (JsValue ν))) :
    canonicalizeFields rt fields = (defined fields).map fun f => (f.1, canonicalize rt f.2) := by
  induction fields with
  | nil =>
      rw [canonicalizeFields]
      rfl
  | cons f fields ih =>
      obtain ⟨key, m⟩ := f
      rw [canonicalizeFields, canonicalizeField, ih]
      cases m with
      | none =>
          rw [canonicalizeMember]
          rfl
      | some x =>
          rw [canonicalizeMember]
          rfl

theorem canonicalize_arr (items : List (JsValue ν)) :
    canonicalize rt (.arr items) =
      .arr ((items.map (canonicalize rt)).insertionSort (itemLe rt)) := by
  rw [canonicalize, canonicalizeItems_eq]

theorem canonicalize_obj (fields : List (String × Option (JsValue ν))) :
    canonicalize rt (.obj fields) =
      .obj (fromEntries (((defined fields).map fun f => (f.1, canonicalize rt f.2)).insertionSort
        (keyLe rt))) := by
  rw [canonicalize, canonicalizeFields_eq]

theorem fromEntries_perm : (fromEntries entries).Perm (asMembers entries) := by
  unfold fromEntries
  refine List.Perm.map _ ?_
  have hindexed := List.perm_insertionSort
    (fun f g : String × JsValue ν => (arrayIndex f.1).getD 0 ≤ (arrayIndex g.1).getD 0)
    (entries.filter fun f => (arrayIndex f.1).isSome)
  refine (hindexed.append_right _).trans ?_
  have hnot : (entries.filter fun f => (arrayIndex f.1).isNone) =
      entries.filter fun f => !(arrayIndex f.1).isSome := by
    refine List.filter_congr fun f _ => ?_
    cases arrayIndex f.1 <;> rfl
  rw [hnot]
  exact List.filter_append_perm _ entries

theorem same_canonicalize (v : JsValue ν) : Same v (canonicalize rt v) := by
  induction v using JsValue.induction with
  | null => rw [canonicalize]; exact Same.refl _
  | bool b => rw [canonicalize]; exact Same.refl _
  | num n => rw [canonicalize]; exact Same.refl _
  | str s => rw [canonicalize]; exact Same.refl _
  | arr items ih =>
      rw [canonicalize_arr]
      have hitems : List.Forall₂ Same items (items.map (canonicalize rt)) := by
        rw [List.forall₂_map_right_iff, List.forall₂_same]
        exact ih
      exact (same_arr hitems).trans (Same.items (List.perm_insertionSort _ _).symm)
  | obj fields ih =>
      rw [canonicalize_obj]
      refine (same_defined fields).trans ?_
      have hvalues := same_obj (defined fields) (canonicalize rt) fun e he =>
        ih e.1 e.2 (mem_defined.mp he)
      refine hvalues.trans (Same.members ?_)
      have hsorted := List.perm_insertionSort (keyLe rt)
        ((defined fields).map fun f => (f.1, canonicalize rt f.2))
      exact ((fromEntries_perm _).trans (hsorted.map _)).symm

theorem plain_canonicalize (v : JsValue ν) : Plain (canonicalize rt v) := by
  induction v using JsValue.induction with
  | null => rw [canonicalize]; exact Plain.null
  | bool b => rw [canonicalize]; exact Plain.bool b
  | num n => rw [canonicalize]; exact Plain.num n
  | str s => rw [canonicalize]; exact Plain.str s
  | arr items ih =>
      rw [canonicalize_arr]
      refine Plain.arr fun x hx => ?_
      obtain ⟨y, hy, hxy⟩ := List.mem_map.mp ((List.mem_insertionSort _).mp hx)
      rw [← hxy]
      exact ih y hy
  | obj fields ih =>
      rw [canonicalize_obj]
      have hentry : ∀ f ∈ fromEntries (((defined fields).map fun f =>
          (f.1, canonicalize rt f.2)).insertionSort (keyLe rt)),
          ∃ e ∈ defined fields, f = (e.1, some (canonicalize rt e.2)) := by
        intro f hf
        have hmem := (fromEntries_perm _).mem_iff.mp hf
        obtain ⟨e, he, hef⟩ := List.mem_map.mp hmem
        obtain ⟨d, hd, hde⟩ := List.mem_map.mp ((List.mem_insertionSort _).mp he)
        refine ⟨d, hd, ?_⟩
        rw [← hef, ← hde]
      refine Plain.obj ?_ ?_
      · intro f hf
        obtain ⟨e, -, heq⟩ := hentry f hf
        rw [heq]
        rfl
      · intro key x hf
        obtain ⟨e, he, heq⟩ := hentry _ hf
        injection heq with _ hx
        rw [Option.some.inj hx]
        exact ih e.1 e.2 (mem_defined.mp he)

theorem fingerprintPayload_eq_iff {rt : FingerprintRuntime ν} (h : rt.Lawful) (v w : JsValue ν) :
    fingerprintPayload rt v = fingerprintPayload rt w ↔ canonicalize rt v = canonicalize rt w := by
  constructor
  · intro heq
    exact stringify_inj h.numberText (plain_canonicalize rt v) (plain_canonicalize rt w)
      (h.sha256 heq)
  · intro heq
    rw [fingerprintPayload, fingerprintPayload, heq]

theorem same_of_canonicalize_eq {v w : JsValue ν} (h : canonicalize rt v = canonicalize rt w) :
    Same v w := by
  have hw := same_canonicalize rt w
  rw [← h] at hw
  exact (same_canonicalize rt v).trans hw.symm

end Order

/-! ## Where the order does not matter -/

theorem arrayIndex_inj {key key' : String} {n : Nat} (h : arrayIndex key = some n)
    (h' : arrayIndex key' = some n) : key = key' := by
  have htext : ∀ {k : String}, arrayIndex k = some n → toString n = k := by
    intro k hk
    obtain ⟨-, hself⟩ := Option.filter_eq_some_iff.mp hk
    simp only [Bool.and_eq_true, beq_iff_eq] at hself
    exact hself.1
  rw [← htext h, ← htext h']

/-- Payloads as the runtime builds them: the keys of an object are distinct. -/
inductive Proper : JsValue ν → Prop where
  | null : Proper .null
  | bool (b : Bool) : Proper (.bool b)
  | num (n : ν) : Proper (.num n)
  | str (s : String) : Proper (.str s)
  | arr {items : List (JsValue ν)} (h : ∀ x ∈ items, Proper x) : Proper (.arr items)
  | obj {fields : List (String × Option (JsValue ν))} (hkeys : (fields.map Prod.fst).Nodup)
      (h : ∀ key x, (key, some x) ∈ fields → Proper x) : Proper (.obj fields)

/-- No two different items of an array and no two different keys of an object tie. Keys that are
array indices are ordered by the object, not by the collation. -/
inductive Untied (rt : FingerprintRuntime ν) : JsValue ν → Prop where
  | null : Untied rt .null
  | bool (b : Bool) : Untied rt (.bool b)
  | num (n : ν) : Untied rt (.num n)
  | str (s : String) : Untied rt (.str s)
  | arr {items : List (JsValue ν)} (h : ∀ x ∈ items, Untied rt x)
      (hties : ∀ x ∈ items, ∀ y ∈ items,
        rt.localeCompare (stringify rt.numberText (canonicalize rt x))
          (stringify rt.numberText (canonicalize rt y)) = .eq → Same x y) : Untied rt (.arr items)
  | obj {fields : List (String × Option (JsValue ν))}
      (h : ∀ key x, (key, some x) ∈ fields → Untied rt x)
      (hties : ∀ key x key' y, (key, some x) ∈ fields → (key', some y) ∈ fields →
        arrayIndex key = none → arrayIndex key' = none →
        rt.localeCompare key key' = .eq → key = key') : Untied rt (.obj fields)

section Collation

variable {rt : FingerprintRuntime ν}

theorem tie_iff (h : rt.Lawful) (a b : String) :
    rt.localeCompare a b = .eq ↔
      (rt.localeCompare a b).isLE = true ∧ (rt.localeCompare b a).isLE = true := by
  have := h.localeCompare
  have hswap : rt.localeCompare b a = (rt.localeCompare a b).swap := Std.OrientedCmp.eq_swap
  rw [hswap]
  cases rt.localeCompare a b <;> decide

theorem collation_total (h : rt.Lawful) (a b : String) :
    (rt.localeCompare a b).isLE = true ∨ (rt.localeCompare b a).isLE = true := by
  have := h.localeCompare
  have hswap : rt.localeCompare b a = (rt.localeCompare a b).swap := Std.OrientedCmp.eq_swap
  rw [hswap]
  cases rt.localeCompare a b <;> decide

theorem collation_trans (h : rt.Lawful) {a b c : String}
    (hab : (rt.localeCompare a b).isLE = true) (hbc : (rt.localeCompare b c).isLE = true) :
    (rt.localeCompare a c).isLE = true := by
  have := h.localeCompare
  exact Std.TransCmp.isLE_trans hab hbc

theorem tie_trans (h : rt.Lawful) {a b c : String} (hab : rt.localeCompare a b = .eq)
    (hac : rt.localeCompare a c = .eq) : (rt.localeCompare b c).isLE = true :=
  collation_trans h ((tie_iff h a b).mp hab).2 ((tie_iff h a c).mp hac).1

theorem itemLe_total (h : rt.Lawful) : Std.Total (itemLe rt) :=
  ⟨fun _ _ => collation_total h _ _⟩

theorem itemLe_trans (h : rt.Lawful) : IsTrans (JsValue ν) (itemLe rt) :=
  ⟨fun _ _ _ hab hbc => collation_trans h hab hbc⟩

theorem keyLe_total (h : rt.Lawful) : Std.Total (keyLe rt) := ⟨fun _ _ => collation_total h _ _⟩

theorem keyLe_trans (h : rt.Lawful) : IsTrans (String × JsValue ν) (keyLe rt) :=
  ⟨fun _ _ _ hab hbc => collation_trans h hab hbc⟩

end Collation

/-- No two different texts of items tie. -/
def ItemsApart (rt : FingerprintRuntime ν) (items : List (JsValue ν)) : Prop :=
  ∀ c ∈ items, ∀ d ∈ items, itemLe rt c d → itemLe rt d c → c = d

/-- No two different keys tie, but for array indices. -/
def KeysApart (rt : FingerprintRuntime ν) (keys : List String) : Prop :=
  keys.Nodup ∧ ∀ k ∈ keys, ∀ k' ∈ keys, arrayIndex k = none → arrayIndex k' = none →
    rt.localeCompare k k' = .eq → k = k'

/-- Payloads with one canonical form for all their orders. -/
inductive OneForm (rt : FingerprintRuntime ν) : JsValue ν → Prop where
  | null : OneForm rt .null
  | bool (b : Bool) : OneForm rt (.bool b)
  | num (n : ν) : OneForm rt (.num n)
  | str (s : String) : OneForm rt (.str s)
  | arr {items : List (JsValue ν)} (h : ∀ x ∈ items, OneForm rt x)
      (hties : ItemsApart rt (items.map (canonicalize rt))) : OneForm rt (.arr items)
  | obj {fields : List (String × Option (JsValue ν))} (h : ∀ e ∈ defined fields, OneForm rt e.2)
      (hties : KeysApart rt ((defined fields).map Prod.fst)) : OneForm rt (.obj fields)

theorem entry_eq {entries : List (String × JsValue ν)} (hkeys : (entries.map Prod.fst).Nodup)
    {e e' : String × JsValue ν} (he : e ∈ entries) (he' : e' ∈ entries) (hkey : e.1 = e'.1) :
    e = e' := List.inj_on_of_nodup_map hkeys he he' hkey

section OneForm

variable {rt : FingerprintRuntime ν} (hrt : rt.Lawful)

include hrt

theorem sort_items_congr {items items' : List (JsValue ν)} (hperm : items.Perm items')
    (hties : ItemsApart rt items) :
    items.insertionSort (itemLe rt) = items'.insertionSort (itemLe rt) := by
  have := itemLe_total hrt
  have := itemLe_trans hrt
  exact insertionSort_congr hperm hties

theorem fromEntries_congr {entries entries' : List (String × JsValue ν)}
    (hperm : entries.Perm entries') (hties : KeysApart rt (entries.map Prod.fst)) :
    fromEntries (entries.insertionSort (keyLe rt)) =
      fromEntries (entries'.insertionSort (keyLe rt)) := by
  have := keyLe_total hrt
  have := keyLe_trans hrt
  have hsorted : (entries.insertionSort (keyLe rt)).Perm (entries'.insertionSort (keyLe rt)) :=
    ((List.perm_insertionSort _ _).trans hperm).trans (List.perm_insertionSort _ _).symm
  have hin : ∀ {e}, e ∈ entries.insertionSort (keyLe rt) → e ∈ entries :=
    fun he => (List.mem_insertionSort _).mp he
  have hin' : ∀ {e}, e ∈ entries'.insertionSort (keyLe rt) → e ∈ entries :=
    fun he => hperm.mem_iff.mpr ((List.mem_insertionSort _).mp he)
  have hindexed : ((entries.insertionSort (keyLe rt)).filter fun f =>
        (arrayIndex f.1).isSome).insertionSort
          (fun f g => (arrayIndex f.1).getD 0 ≤ (arrayIndex g.1).getD 0) =
      ((entries'.insertionSort (keyLe rt)).filter fun f =>
        (arrayIndex f.1).isSome).insertionSort
          (fun f g => (arrayIndex f.1).getD 0 ≤ (arrayIndex g.1).getD 0) := by
    have htotal : Std.Total fun f g : String × JsValue ν =>
        (arrayIndex f.1).getD 0 ≤ (arrayIndex g.1).getD 0 := ⟨fun _ _ => Nat.le_total _ _⟩
    have htrans : IsTrans (String × JsValue ν) fun f g =>
        (arrayIndex f.1).getD 0 ≤ (arrayIndex g.1).getD 0 :=
      ⟨fun _ _ _ hab hbc => Nat.le_trans hab hbc⟩
    refine insertionSort_congr (hsorted.filter _) fun a ha b hb hab hba => ?_
    obtain ⟨ha, hasome⟩ := List.mem_filter.mp ha
    obtain ⟨hb, hbsome⟩ := List.mem_filter.mp hb
    obtain ⟨m, hm⟩ := Option.isSome_iff_exists.mp hasome
    obtain ⟨n, hn⟩ := Option.isSome_iff_exists.mp hbsome
    rw [hm, hn] at hab hba
    have hmn : m = n := Nat.le_antisymm hab hba
    exact entry_eq hties.1 (hin ha) (hin hb) (arrayIndex_inj hm (hmn ▸ hn))
  have hrest : ((entries.insertionSort (keyLe rt)).filter fun f => (arrayIndex f.1).isNone) =
      (entries'.insertionSort (keyLe rt)).filter fun f => (arrayIndex f.1).isNone := by
    refine List.Perm.eq_of_pairwise ?_
      ((List.pairwise_insertionSort (keyLe rt) entries).filter _)
      ((List.pairwise_insertionSort (keyLe rt) entries').filter _) (hsorted.filter _)
    intro a b ha hb hab hba
    obtain ⟨ha, hanone⟩ := List.mem_filter.mp ha
    obtain ⟨hb, hbnone⟩ := List.mem_filter.mp hb
    have hkey : a.1 = b.1 := hties.2 a.1 (List.mem_map_of_mem (hin ha)) b.1
      (List.mem_map_of_mem (hin' hb)) (Option.isNone_iff_eq_none.mp hanone)
      (Option.isNone_iff_eq_none.mp hbnone) ((tie_iff hrt a.1 b.1).mpr ⟨hab, hba⟩)
    exact entry_eq hties.1 (hin ha) (hin' hb) hkey
  rw [fromEntries, fromEntries, hindexed, hrest]

theorem settled_items {items items' : List (JsValue ν)} (hperm : items.Perm items')
    (h : OneForm rt (.arr items)) :
    OneForm rt (.arr items') ∧ canonicalize rt (.arr items) = canonicalize rt (.arr items') := by
  cases h with
  | arr hall hties =>
      have hmap := hperm.map (canonicalize rt)
      constructor
      · refine .arr (fun x hx => hall x (hperm.mem_iff.mpr hx)) fun c hc d hd => ?_
        exact hties c (hmap.mem_iff.mpr hc) d (hmap.mem_iff.mpr hd)
      · rw [canonicalize_arr, canonicalize_arr, sort_items_congr hrt hmap hties]

omit hrt in
theorem settled_item {x y : JsValue ν} (before after : List (JsValue ν))
    (hxy : OneForm rt x → OneForm rt y ∧ canonicalize rt x = canonicalize rt y)
    (h : OneForm rt (.arr (before ++ x :: after))) :
    OneForm rt (.arr (before ++ y :: after)) ∧
      canonicalize rt (.arr (before ++ x :: after)) =
        canonicalize rt (.arr (before ++ y :: after)) := by
  cases h with
  | arr hall hties =>
      obtain ⟨hy, hcanonical⟩ := hxy (hall x (by simp))
      have hmap : (before ++ x :: after).map (canonicalize rt) =
          (before ++ y :: after).map (canonicalize rt) := by
        rw [List.map_append, List.map_append, List.map_cons, List.map_cons, hcanonical]
      constructor
      · refine .arr (fun z hz => ?_) (hmap ▸ hties)
        rw [List.mem_append, List.mem_cons] at hz
        obtain hz | hz | hz := hz
        · exact hall z (by simp [hz])
        · exact hz ▸ hy
        · exact hall z (by simp [hz])
      · rw [canonicalize_arr, canonicalize_arr, hmap]

theorem settled_members {fields fields' : List (String × Option (JsValue ν))}
    (hperm : fields.Perm fields') (h : OneForm rt (.obj fields)) :
    OneForm rt (.obj fields') ∧ canonicalize rt (.obj fields) = canonicalize rt (.obj fields') := by
  cases h with
  | obj hall hties =>
      have hdefined : (defined fields).Perm (defined fields') := hperm.filterMap _
      have hkeys := hdefined.map Prod.fst
      constructor
      · refine .obj (fun e he => hall e (hdefined.mem_iff.mpr he))
          ⟨hkeys.nodup_iff.mp hties.1, fun k hk k' hk' => ?_⟩
        exact hties.2 k (hkeys.mem_iff.mpr hk) k' (hkeys.mem_iff.mpr hk')
      · rw [canonicalize_obj, canonicalize_obj, fromEntries_congr hrt (hdefined.map _)]
        rw [List.map_map]
        exact hties

omit hrt in
theorem settled_member {x y : JsValue ν} (before : List (String × Option (JsValue ν)))
    (key : String) (after : List (String × Option (JsValue ν)))
    (hxy : OneForm rt x → OneForm rt y ∧ canonicalize rt x = canonicalize rt y)
    (h : OneForm rt (.obj (before ++ (key, some x) :: after))) :
    OneForm rt (.obj (before ++ (key, some y) :: after)) ∧
      canonicalize rt (.obj (before ++ (key, some x) :: after)) =
        canonicalize rt (.obj (before ++ (key, some y) :: after)) := by
  have hdefined : ∀ v : JsValue ν, defined (before ++ (key, some v) :: after) =
      defined before ++ (key, v) :: defined after := fun v => defined_append _ _
  cases h with
  | obj hall hties =>
      rw [hdefined] at hall hties
      obtain ⟨hy, hcanonical⟩ := hxy (hall (key, x) (by simp))
      have hkeys : (defined before ++ (key, x) :: defined after).map Prod.fst =
          (defined before ++ (key, y) :: defined after).map Prod.fst := by
        rw [List.map_append, List.map_append, List.map_cons, List.map_cons]
      constructor
      · refine .obj ?_ ?_
        · rw [hdefined]
          intro e he
          rw [List.mem_append, List.mem_cons] at he
          obtain he | he | he := he
          · exact hall e (by simp [he])
          · exact he ▸ hy
          · exact hall e (by simp [he])
        · rw [hdefined, ← hkeys]
          exact hties
      · rw [canonicalize_obj, canonicalize_obj, hdefined, hdefined, List.map_append,
          List.map_append, List.map_cons, List.map_cons, hcanonical]

omit hrt in
theorem settled_undefined {fields fields' : List (String × Option (JsValue ν))}
    (hdefined : defined fields = defined fields') (h : OneForm rt (.obj fields)) :
    OneForm rt (.obj fields') ∧ canonicalize rt (.obj fields) = canonicalize rt (.obj fields') := by
  cases h with
  | obj hall hties =>
      rw [hdefined] at hall hties
      refine ⟨.obj hall hties, ?_⟩
      rw [canonicalize_obj, canonicalize_obj, hdefined]

theorem settled_same {v w : JsValue ν} (h : Same v w) :
    (OneForm rt v → OneForm rt w ∧ canonicalize rt v = canonicalize rt w) ∧
      (OneForm rt w → OneForm rt v ∧ canonicalize rt w = canonicalize rt v) := by
  induction h with
  | refl v => exact ⟨fun hv => ⟨hv, rfl⟩, fun hv => ⟨hv, rfl⟩⟩
  | symm _ ih => exact ⟨ih.2, ih.1⟩
  | trans _ _ ih ih' =>
      constructor
      · intro hu
        obtain ⟨hv, huv⟩ := ih.1 hu
        obtain ⟨hw, hvw⟩ := ih'.1 hv
        exact ⟨hw, huv.trans hvw⟩
      · intro hw
        obtain ⟨hv, hwv⟩ := ih'.2 hw
        obtain ⟨hu, hvu⟩ := ih.2 hv
        exact ⟨hu, hwv.trans hvu⟩
  | items hperm => exact ⟨settled_items hrt hperm, settled_items hrt hperm.symm⟩
  | item before after _ ih =>
      exact ⟨settled_item before after ih.1, settled_item before after ih.2⟩
  | members hperm => exact ⟨settled_members hrt hperm, settled_members hrt hperm.symm⟩
  | member before key after _ ih =>
      exact ⟨settled_member before key after ih.1, settled_member before key after ih.2⟩
  | undefined before key after =>
      have hdefined : defined (before ++ (key, none) :: after) =
          (defined (before ++ after) : List (String × JsValue ν)) := by
        rw [defined_append, defined_append]
        rfl
      exact ⟨settled_undefined hdefined, settled_undefined hdefined.symm⟩

end OneForm

/-! ## Where the order shows -/

theorem asMembers_inj {entries entries' : List (String × JsValue ν)}
    (h : asMembers entries = asMembers entries') : entries = entries' := by
  rw [← defined_asMembers entries, h, defined_asMembers]

theorem filter_fromEntries {tied : String → Bool} (h : ∀ k, tied k = true → arrayIndex k = none) :
    ((fromEntries entries).filter fun f => tied f.1) =
      asMembers (entries.filter fun f => tied f.1) := by
  have hindexed : (((entries.filter fun f => (arrayIndex f.1).isSome).insertionSort
      (fun f g => (arrayIndex f.1).getD 0 ≤ (arrayIndex g.1).getD 0)).filter
        fun f => tied f.1) = [] := by
    rw [List.filter_eq_nil_iff]
    intro f hf htied
    obtain ⟨-, hsome⟩ := List.mem_filter.mp ((List.mem_insertionSort _).mp hf)
    rw [h f.1 htied] at hsome
    cases hsome
  have hrest : ((entries.filter fun f => (arrayIndex f.1).isNone).filter fun f => tied f.1) =
      entries.filter fun f => tied f.1 := by
    rw [List.filter_filter]
    refine List.filter_congr fun f _ => ?_
    cases htied : tied f.1 with
    | false => rfl
    | true => rw [h f.1 htied]; rfl
  rw [fromEntries, List.filter_map]
  show asMembers (List.filter _ (_ ++ _)) = asMembers _
  rw [List.filter_append]
  show asMembers ((List.filter (fun f => tied f.1) _) ++ (List.filter (fun f => tied f.1) _)) = _
  rw [hindexed, hrest, List.nil_append]

theorem defined_keys (fields : List (String × Option (JsValue ν))) :
    ((defined fields).map Prod.fst).Sublist (fields.map Prod.fst) := by
  induction fields with
  | nil => exact List.Sublist.refl _
  | cons f fields ih =>
      obtain ⟨key, m⟩ := f
      cases m with
      | none => exact ih.cons key
      | some v => exact ih.cons_cons key

/-- Another payload of the same meaning with another canonical form. -/
def OtherForm (rt : FingerprintRuntime ν) (v : JsValue ν) : Prop :=
  ∃ w, Proper w ∧ Same v w ∧ canonicalize rt v ≠ canonicalize rt w

theorem perm_replaced {α : Type} {l m : List α} {a b : α} (h : (l ++ a :: m).Perm (l ++ b :: m)) :
    a = b := by
  have htail := (List.perm_append_left_iff l).mp h
  rw [← List.singleton_append, ← @List.singleton_append _ b] at htail
  have hone := (List.perm_append_right_iff m).mp htail
  simpa using hone

theorem filter_sortedKeys {rt : FingerprintRuntime ν} {tied : String → Bool}
    (h : ∀ a b, tied a = true → tied b = true → (rt.localeCompare a b).isLE = true)
    (entries : List (String × JsValue ν)) :
    ((entries.insertionSort (keyLe rt)).filter fun f => tied f.1) =
      entries.filter fun f => tied f.1 := by
  have hle : ∀ f g : String × JsValue ν, tied f.1 = true → tied g.1 = true → keyLe rt f g :=
    fun f g hf hg => h f.1 g.1 hf hg
  exact filter_insertionSort (r := keyLe rt) (fun f => tied f.1) hle entries

section Other

variable {rt : FingerprintRuntime ν}

theorem otherForm_item {items : List (JsValue ν)} (hproper : ∀ x ∈ items, Proper x)
    {x : JsValue ν} (hx : x ∈ items) (h : OtherForm rt x) : OtherForm rt (.arr items) := by
  obtain ⟨y, hy, hsame, hne⟩ := h
  obtain ⟨before, after, hsplit⟩ := List.append_of_mem hx
  subst hsplit
  refine ⟨.arr (before ++ y :: after), .arr fun z hz => ?_, Same.item before after hsame, ?_⟩
  · rw [List.mem_append, List.mem_cons] at hz
    obtain hz | hz | hz := hz
    · exact hproper z (by simp [hz])
    · exact hz ▸ hy
    · exact hproper z (by simp [hz])
  · intro heq
    rw [canonicalize_arr, canonicalize_arr] at heq
    injection heq with hsorted
    have hperm := (List.perm_insertionSort (itemLe rt) _).symm.trans
      ((List.Perm.of_eq hsorted).trans (List.perm_insertionSort (itemLe rt) _))
    rw [List.map_append, List.map_append, List.map_cons, List.map_cons] at hperm
    exact hne (perm_replaced hperm)

theorem otherForm_member (hkeys : (fields.map Prod.fst).Nodup)
    (hproper : ∀ key x, (key, some x) ∈ fields → Proper x) {key : String} {x : JsValue ν}
    (hx : (key, some x) ∈ fields) (h : OtherForm rt x) : OtherForm rt (.obj fields) := by
  obtain ⟨y, hy, hsame, hne⟩ := h
  obtain ⟨before, after, hsplit⟩ := List.append_of_mem hx
  subst hsplit
  have hdefined : ∀ v : JsValue ν, defined (before ++ (key, some v) :: after) =
      defined before ++ (key, v) :: defined after := fun v => defined_append _ _
  refine ⟨.obj (before ++ (key, some y) :: after), .obj ?_ ?_, Same.member before key after hsame,
    ?_⟩
  · rw [List.map_append, List.map_cons] at hkeys ⊢
    exact hkeys
  · intro key' z hz
    rw [List.mem_append, List.mem_cons] at hz
    obtain hz | hz | hz := hz
    · exact hproper key' z (by simp [hz])
    · injection hz with _ hz
      exact Option.some.inj hz ▸ hy
    · exact hproper key' z (by simp [hz])
  · intro heq
    rw [canonicalize_obj, canonicalize_obj, hdefined, hdefined] at heq
    injection heq with hentries
    have hperm : ∀ entries : List (String × JsValue ν),
        (fromEntries (entries.insertionSort (keyLe rt))).Perm (asMembers entries) := fun entries =>
      (fromEntries_perm _).trans ((List.perm_insertionSort (keyLe rt) entries).map _)
    have hboth := (hperm _).symm.trans ((List.Perm.of_eq hentries).trans (hperm _))
    simp only [asMembers, List.map_append, List.map_cons] at hboth
    have hsame := perm_replaced hboth
    injection hsame with _ hvalue
    exact hne (Option.some.inj hvalue)

theorem otherForm_items (hrt : rt.Lawful) {items : List (JsValue ν)}
    (hproper : ∀ x ∈ items, Proper x) (h : ¬ ItemsApart rt (items.map (canonicalize rt))) :
    OtherForm rt (.arr items) := by
  unfold ItemsApart at h
  push Not at h
  obtain ⟨c, hc, d, hd, hcd, hdc, hne⟩ := h
  obtain ⟨x, hx, hxc⟩ := List.mem_map.mp hc
  obtain ⟨y, hy, hyd⟩ := List.mem_map.mp hd
  subst hxc
  subst hyd
  let text : JsValue ν → String := stringify rt.numberText
  let tied : JsValue ν → Bool := fun z => rt.localeCompare (text (canonicalize rt x)) (text z) == .eq
  have htied : ∀ {z}, tied z = true → rt.localeCompare (text (canonicalize rt x)) (text z) = .eq :=
    fun hz => by simpa [tied] using hz
  have hself : tied (canonicalize rt x) = true := by
    have heq := (tie_iff hrt (text (canonicalize rt x)) (text (canonicalize rt x))).mpr
    have hrefl := collation_total hrt (text (canonicalize rt x)) (text (canonicalize rt x))
    simp [tied, heq ⟨hrefl.elim id id, hrefl.elim id id⟩]
  have hother : tied (canonicalize rt y) = true := by
    simp [tied, (tie_iff hrt _ _).mpr ⟨hcd, hdc⟩, text]
  obtain ⟨items', hperm, hne'⟩ := exists_other_order (canonicalize rt) tied hx hy hself hother hne
  refine ⟨.arr items', .arr fun z hz => hproper z (hperm.mem_iff.mpr hz), Same.items hperm, ?_⟩
  intro heq
  rw [canonicalize_arr, canonicalize_arr] at heq
  injection heq with hsorted
  have hfilter := congrArg (List.filter tied) hsorted
  have hle : ∀ a b, tied a = true → tied b = true → itemLe rt a b :=
    fun a b ha hb => tie_trans hrt (htied ha) (htied hb)
  rw [filter_insertionSort tied hle, filter_insertionSort tied hle] at hfilter
  exact hne' hfilter.symm

theorem otherForm_members (hrt : rt.Lawful) (hkeys : (fields.map Prod.fst).Nodup)
    (hproper : ∀ key x, (key, some x) ∈ fields → Proper x) {k k' : String} {x y : JsValue ν}
    (hx : (k, x) ∈ defined fields) (hy : (k', y) ∈ defined fields) (hindex : arrayIndex k = none)
    (hindex' : arrayIndex k' = none) (htie : rt.localeCompare k k' = .eq) (hne : k ≠ k') :
    OtherForm rt (.obj fields) := by
  let tied : String → Bool := fun key =>
    (arrayIndex key).isNone && rt.localeCompare k key == .eq
  have htied : ∀ key, tied key = true → arrayIndex key = none ∧ rt.localeCompare k key = .eq :=
    fun key hkey => by simpa [tied] using hkey
  have hself : tied k = true := by
    have heq := (tie_iff hrt k k).mpr
    have hrefl := collation_total hrt k k
    simp [tied, hindex, heq ⟨hrefl.elim id id, hrefl.elim id id⟩]
  have hother : tied k' = true := by simp [tied, hindex', htie]
  let entry : String × JsValue ν → String × JsValue ν := fun f => (f.1, canonicalize rt f.2)
  have hdiffer : entry (k, x) ≠ entry (k', y) := fun heq => hne (congrArg Prod.fst heq)
  obtain ⟨entries, hperm, hne'⟩ := exists_other_order entry
    (fun f => tied f.1) hx hy hself hother hdiffer
  refine ⟨.obj (asMembers entries), .obj ?_ ?_, ?_, ?_⟩
  · have hdefined : ((defined fields).map Prod.fst).Nodup := hkeys.sublist (defined_keys fields)
    have hmembers : (asMembers entries).map Prod.fst = entries.map Prod.fst := by
      simp [asMembers, Function.comp_def]
    rw [hmembers]
    exact (hperm.map Prod.fst).nodup_iff.mp hdefined
  · intro key z hz
    rw [← mem_defined, defined_asMembers] at hz
    exact hproper key z (mem_defined.mp (hperm.mem_iff.mpr hz))
  · exact (same_defined fields).trans (Same.members (hperm.map _))
  · intro heq
    rw [canonicalize_obj, canonicalize_obj, defined_asMembers] at heq
    injection heq with hentries
    have hfilter := congrArg (List.filter fun f => tied f.1) hentries
    rw [filter_fromEntries _ fun key hkey => (htied key hkey).1,
      filter_fromEntries _ fun key hkey => (htied key hkey).1] at hfilter
    have hsorted := asMembers_inj hfilter
    have hle : ∀ a b, tied a = true → tied b = true → (rt.localeCompare a b).isLE = true :=
      fun a b ha hb => tie_trans hrt (htied a ha).2 (htied b hb).2
    rw [filter_sortedKeys hle, filter_sortedKeys hle] at hsorted
    exact hne' hsorted.symm

end Other

section Tell

variable {rt : FingerprintRuntime ν}

theorem otherForm_of_not_settled (hrt : rt.Lawful) (v : JsValue ν) (hv : Proper v)
    (h : ¬ OneForm rt v) : OtherForm rt v := by
  induction v using JsValue.induction with
  | null => exact absurd .null h
  | bool b => exact absurd (.bool b) h
  | num n => exact absurd (.num n) h
  | str s => exact absurd (.str s) h
  | arr items ih =>
      cases hv with
      | arr hproper =>
          by_cases hall : ∀ x ∈ items, OneForm rt x
          · exact otherForm_items hrt hproper fun hties => h (.arr hall hties)
          · push Not at hall
            obtain ⟨x, hx, hnot⟩ := hall
            exact otherForm_item hproper hx (ih x hx (hproper x hx) hnot)
  | obj fields ih =>
      cases hv with
      | obj hkeys hproper =>
          by_cases hall : ∀ e ∈ defined fields, OneForm rt e.2
          · by_contra hnone
            refine h (.obj hall ⟨?_, fun k hk k' hk' hindex hindex' htie => ?_⟩)
            · exact hkeys.sublist (defined_keys fields)
            · by_contra hne
              obtain ⟨e, he, hek⟩ := List.mem_map.mp hk
              obtain ⟨e', he', hek'⟩ := List.mem_map.mp hk'
              subst hek
              subst hek'
              exact hnone (otherForm_members hrt hkeys hproper he he' hindex hindex' htie hne)
          · push Not at hall
            obtain ⟨e, he, hnot⟩ := hall
            have hmem := mem_defined.mp he
            exact otherForm_member hkeys hproper hmem (ih e.1 e.2 hmem (hproper e.1 e.2 hmem) hnot)

theorem settled_iff_untied (hrt : rt.Lawful) (v : JsValue ν) (hv : Proper v) :
    OneForm rt v ↔ Untied rt v := by
  induction v using JsValue.induction with
  | null => exact ⟨fun _ => .null, fun _ => .null⟩
  | bool b => exact ⟨fun _ => .bool b, fun _ => .bool b⟩
  | num n => exact ⟨fun _ => .num n, fun _ => .num n⟩
  | str s => exact ⟨fun _ => .str s, fun _ => .str s⟩
  | arr items ih =>
      cases hv with
      | arr hproper =>
          constructor
          · intro h
            cases h with
            | arr hall hties =>
                refine .arr (fun x hx => (ih x hx (hproper x hx)).mp (hall x hx)) ?_
                intro x hx y hy htie
                obtain ⟨hxy, hyx⟩ := (tie_iff hrt _ _).mp htie
                exact same_of_canonicalize_eq rt (hties _ (List.mem_map_of_mem hx) _
                  (List.mem_map_of_mem hy) hxy hyx)
          · intro h
            cases h with
            | arr hall hties =>
                have hsettled := fun x hx => (ih x hx (hproper x hx)).mpr (hall x hx)
                refine .arr hsettled fun c hc d hd hcd hdc => ?_
                obtain ⟨x, hx, hxc⟩ := List.mem_map.mp hc
                obtain ⟨y, hy, hyd⟩ := List.mem_map.mp hd
                subst hxc
                subst hyd
                have hsame := hties x hx y hy ((tie_iff hrt _ _).mpr ⟨hcd, hdc⟩)
                exact ((settled_same hrt hsame).1 (hsettled x hx)).2
  | obj fields ih =>
      cases hv with
      | obj hkeys hproper =>
          constructor
          · intro h
            cases h with
            | obj hall hties =>
                refine .obj (fun key x hx => (ih key x hx (hproper key x hx)).mp
                  (hall (key, x) (mem_defined.mpr hx))) ?_
                intro key x key' y hx hy hindex hindex' htie
                exact hties.2 key (List.mem_map_of_mem (mem_defined.mpr hx)) key'
                  (List.mem_map_of_mem (mem_defined.mpr hy)) hindex hindex' htie
          · intro h
            cases h with
            | obj hall hties =>
                refine .obj (fun e he => ?_) ⟨hkeys.sublist (defined_keys fields), ?_⟩
                · have hmem := mem_defined.mp he
                  exact (ih e.1 e.2 hmem (hproper e.1 e.2 hmem)).mpr (hall e.1 e.2 hmem)
                · intro k hk k' hk' hindex hindex' htie
                  obtain ⟨e, he, hek⟩ := List.mem_map.mp hk
                  obtain ⟨e', he', hek'⟩ := List.mem_map.mp hk'
                  subst hek
                  subst hek'
                  exact hties e.1 e.2 e'.1 e'.2 (mem_defined.mp he) (mem_defined.mp he') hindex
                    hindex' htie

end Tell

/-- The fingerprint of a payload is that of exactly the payloads equal to it up to order, where
nothing in it ties; and only there. -/
theorem fingerprintPayload_tells (rt : FingerprintRuntime ν) (hrt : rt.Lawful) (payload : JsValue ν)
    (hproper : Proper payload) :
    (∀ other, Proper other → (fingerprintPayload rt payload = fingerprintPayload rt other ↔
      Same payload other)) ↔ Untied rt payload := by
  rw [← settled_iff_untied hrt payload hproper]
  constructor
  · intro h
    by_contra hnot
    obtain ⟨other, hother, hsame, hne⟩ := otherForm_of_not_settled hrt payload hproper hnot
    exact hne ((fingerprintPayload_eq_iff hrt payload other).mp ((h other hother).mpr hsame))
  · intro hsettled other _
    rw [fingerprintPayload_eq_iff hrt]
    constructor
    · intro heq
      exact same_of_canonicalize_eq rt heq
    · intro hsame
      exact ((settled_same hrt hsame).1 hsettled).2

/-! ### A collation with ties -/

/-- An accented letter as two characters: canonically equivalent texts tie. -/
def decompose (text : String) : List Nat :=
  text.toList.flatMap fun c => if c.toNat = 0xe9 then [0x65, 0x301] else [c.toNat]

def collatedRuntime : FingerprintRuntime Nat where
  numberText := Nat.repr
  localeCompare := compareOn decompose
  sha256 := id

theorem numberText_repr : NumberText Nat.repr where
  injective := by
    intro m n h
    have hdigits := congrArg String.toList h
    rw [Nat.toList_repr, Nat.toList_repr] at hdigits
    rw [← @Nat.ofDigitChars_ten_toDigits m, hdigits, Nat.ofDigitChars_ten_toDigits]
  nonempty := by
    intro n
    rw [Nat.toList_repr]
    exact Nat.toDigits_ne_nil
  chars := by
    intro n c hc
    rw [Nat.toList_repr] at hc
    have hdigit : c.isDigit = true := Nat.isDigit_of_mem_toDigits (by decide) (by decide) hc
    simp [isNumberChar, hdigit]

theorem collatedRuntime_lawful : collatedRuntime.Lawful where
  numberText := numberText_repr
  localeCompare := inferInstanceAs (Std.TransCmp (compareOn decompose))
  sha256 := fun _ _ h => h

/-- A payload of ids and a name: reordered it has the same fingerprint. -/
def idsPayload : JsValue Nat :=
  .obj [("ids", .some (.arr [.num 2, .num 10])), ("name", .some (.str "a"))]

theorem fingerprintPayload_tells_ids :
    fingerprintPayload collatedRuntime idsPayload =
      fingerprintPayload collatedRuntime
        (.obj [("name", some (.str "a")), ("ids", some (.arr [.num 10, .num 2]))]) := by
  have hproper : Proper idsPayload := by
    refine .obj (by decide) fun key x hx => ?_
    simp only [List.mem_cons, List.not_mem_nil, or_false, Prod.mk.injEq, Option.some.injEq] at hx
    obtain ⟨-, rfl⟩ | ⟨-, rfl⟩ := hx
    · exact .arr fun x hx => by
        simp only [List.mem_cons, List.not_mem_nil, or_false] at hx
        obtain rfl | rfl := hx <;> exact .num _
    · exact .str _
  have huntied : Untied collatedRuntime idsPayload := by
    refine .obj (fun key x hx => ?_) fun key x key' y hx hy _ _ htie => ?_
    · simp only [List.mem_cons, List.not_mem_nil, or_false, Prod.mk.injEq,
        Option.some.injEq] at hx
      obtain ⟨-, rfl⟩ | ⟨-, rfl⟩ := hx
      · refine .arr (fun x hx => ?_) fun x hx y hy htie => ?_
        · simp only [List.mem_cons, List.not_mem_nil, or_false] at hx
          obtain rfl | rfl := hx <;> exact .num _
        · simp only [List.mem_cons, List.not_mem_nil, or_false] at hx hy
          obtain rfl | rfl := hx <;> obtain rfl | rfl := hy
          · exact .refl _
          · exact absurd htie (by decide +kernel)
          · exact absurd htie (by decide +kernel)
          · exact .refl _
      · exact .str _
    · simp only [List.mem_cons, List.not_mem_nil, or_false, Prod.mk.injEq] at hx hy
      obtain ⟨rfl, -⟩ | ⟨rfl, -⟩ := hx <;> obtain ⟨rfl, -⟩ | ⟨rfl, -⟩ := hy
      · rfl
      · exact absurd htie (by decide +kernel)
      · exact absurd htie (by decide +kernel)
      · rfl
  have hother : Proper (.obj [("name", some (.str "a")), ("ids", some (.arr [.num 10, .num 2]))] :
      JsValue Nat) := by
    refine .obj (by decide) fun key x hx => ?_
    simp only [List.mem_cons, List.not_mem_nil, or_false, Prod.mk.injEq, Option.some.injEq] at hx
    obtain ⟨-, rfl⟩ | ⟨-, rfl⟩ := hx
    · exact .str _
    · exact .arr fun x hx => by
        simp only [List.mem_cons, List.not_mem_nil, or_false] at hx
        obtain rfl | rfl := hx <;> exact .num _
  refine ((fingerprintPayload_tells collatedRuntime collatedRuntime_lawful idsPayload hproper).mpr
    huntied _ hother).mpr ?_
  refine Same.trans (Same.member [] "ids" _ (Same.items (List.Perm.swap _ _ []))) ?_
  exact Same.members (List.Perm.swap _ _ [])

/-- Two spellings of one letter tie, and then the order of the items shows. -/
theorem fingerprintPayload_order :
    collatedRuntime.Lawful ∧
      ∃ payload other : JsValue Nat, Proper payload ∧ Proper other ∧ Same payload other ∧
        fingerprintPayload collatedRuntime payload ≠
          fingerprintPayload collatedRuntime other := by
  have hproper : ∀ a b : String, Proper (.arr [.str a, .str b] : JsValue Nat) := by
    intro a b
    refine .arr fun x hx => ?_
    simp only [List.mem_cons, List.not_mem_nil, or_false] at hx
    obtain rfl | rfl := hx <;> exact .str _
  refine ⟨collatedRuntime_lawful, .arr [.str "\u00e9", .str "e\u0301"],
    .arr [.str "e\u0301", .str "\u00e9"], hproper _ _, hproper _ _,
    Same.items (List.Perm.swap _ _ []), ?_⟩
  decide +kernel

end Wbme.Asset

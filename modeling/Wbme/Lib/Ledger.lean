import Mathlib

/-! # Running balances

A ledger is a list of entries that carry the balance before and after a change.
It is chained from one balance to another when every entry starts where its
predecessor ended and moves the balance by exactly its change.
-/

namespace Wbme.Lib

/-- One entry of a running balance. -/
structure Entry where
  before : Int
  after : Int
  change : Int

/-- The entries lead from the first balance to the second. -/
def Chained : Int → List Entry → Int → Prop
  | x, [], y => x = y
  | x, e :: es, y => e.before = x ∧ e.after = e.before + e.change ∧ Chained e.after es y

theorem chained_append {x z : Int} {es fs : List Entry} :
    Chained x (es ++ fs) z ↔ ∃ y, Chained x es y ∧ Chained y fs z := by
  induction es generalizing x with
  | nil => simp [Chained]
  | cons e es ih =>
      simp only [List.cons_append, Chained, ih]
      constructor
      · rintro ⟨h₁, h₂, y, h₃, h₄⟩
        exact ⟨y, ⟨h₁, h₂, h₃⟩, h₄⟩
      · rintro ⟨y, ⟨h₁, h₂, h₃⟩, h₄⟩
        exact ⟨h₁, h₂, y, h₃, h₄⟩

/-- A chained ledger grows by an entry that starts at its end. -/
theorem Chained.snoc {x y : Int} {es : List Entry} (h : Chained x es y) {e : Entry}
    (hb : e.before = y) (ha : e.after = e.before + e.change) : Chained x (es ++ [e]) e.after :=
  chained_append.mpr ⟨y, h, hb, ha, rfl⟩

theorem Chained.entry {x y : Int} {es : List Entry} (h : Chained x es y) :
    ∀ e ∈ es, e.after = e.before + e.change := by
  induction es generalizing x with
  | nil => simp
  | cons e es ih =>
      obtain ⟨-, ha, ht⟩ := h
      intro f hf
      rcases List.mem_cons.mp hf with rfl | hf
      · exact ha
      · exact ih ht f hf

theorem Chained.head {x y : Int} {es : List Entry} (h : Chained x es y) :
    ∀ e, es.head? = some e → e.before = x := by
  cases es with
  | nil => simp
  | cons e es =>
      intro f hf
      obtain rfl : e = f := by simpa using hf
      exact h.1

/-- Neighbours meet: each entry starts where the one before it ended. -/
theorem Chained.isChain {x y : Int} {es : List Entry} (h : Chained x es y) :
    es.IsChain (fun a b => b.before = a.after) := by
  induction es generalizing x with
  | nil => exact .nil
  | cons e es ih =>
      obtain ⟨-, -, ht⟩ := h
      cases es with
      | nil => exact .singleton e
      | cons f es => exact .cons_cons ht.1 (ih ht)

theorem Chained.last {x y : Int} {es : List Entry} (h : Chained x es y) :
    ∀ e, es.getLast? = some e → e.after = y := by
  induction es generalizing x with
  | nil => simp
  | cons e es ih =>
      obtain ⟨-, -, ht⟩ := h
      intro f hf
      cases es with
      | nil =>
          obtain rfl : e = f := by simpa using hf
          exact ht
      | cons g es => exact ih ht f (by simpa [List.getLast?_cons_cons] using hf)

end Wbme.Lib

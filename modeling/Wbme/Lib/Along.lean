import Mathlib.Data.List.Basic

/-!
# Properties of the steps of a run

A machine is a step function over states and events, a run the fold of it over a list of
events. A property of single steps, each seen from the state before it, holds along a run
when every step of the run has it.
-/

namespace Wbme.Lib

/-- Every step of a run has a property, which sees the state before the step. -/
def Along {σ ε : Type*} (step : σ → ε → σ) (P : σ → ε → Prop) : σ → List ε → Prop
  | _, [] => True
  | s, e :: es => P s e ∧ Along step P (step s e) es

namespace Along

variable {σ ε : Type*} {step : σ → ε → σ} {P Q : σ → ε → Prop} {s : σ} {e : ε} {es fs : List ε}

def decidable [∀ s e, Decidable (P s e)] : ∀ s es, Decidable (Along step P s es)
  | _, [] => isTrue trivial
  | s, e :: es =>
      haveI := decidable (step s e) es
      inferInstanceAs (Decidable (P s e ∧ Along step P (step s e) es))

instance [∀ s e, Decidable (P s e)] : Decidable (Along step P s es) := decidable s es

@[simp] theorem nil : Along step P s [] := trivial

theorem cons_iff : Along step P s (e :: es) ↔ P s e ∧ Along step P (step s e) es := Iff.rfl

theorem append_iff :
    Along step P s (es ++ fs) ↔ Along step P s es ∧ Along step P (es.foldl step s) fs := by
  induction es generalizing s with
  | nil => simp
  | cons e es ih =>
      rw [List.cons_append, cons_iff, cons_iff, ih, List.foldl_cons, and_assoc]

theorem imp (h : Along step P s es) (hPQ : ∀ s e, P s e → Q s e) : Along step Q s es := by
  induction es generalizing s with
  | nil => trivial
  | cons e es ih => exact ⟨hPQ s e h.1, ih h.2⟩

/-- What holds at first and is kept by the steps that meet `P` holds after a run of such. -/
theorem induction {I : σ → Prop} (h : Along step P s es) (hI : I s)
    (hstep : ∀ s e, I s → P s e → I (step s e)) : I (es.foldl step s) := by
  induction es generalizing s with
  | nil => exact hI
  | cons e es ih => exact ih h.2 (hstep s e hI h.1)

/-- An invariant that the steps meeting `P` keep lends its strength to every one of them. -/
theorem strengthen {I : σ → Prop} (h : Along step P s es) (hI : I s)
    (hstep : ∀ s e, I s → P s e → I (step s e)) (hQ : ∀ s e, I s → P s e → Q s e) :
    Along step Q s es := by
  induction es generalizing s with
  | nil => trivial
  | cons e es ih => exact ⟨hQ s e hI h.1, ih h.2 (hstep s e hI h.1)⟩

/-- The step at any place of a run. -/
theorem at_split (h : Along step P s (es ++ e :: fs)) : P (es.foldl step s) e :=
  (append_iff.mp h).2.1

/-- A property of every place of a run is one along it. -/
theorem of_splits (h : ∀ es₁ e es₂, es = es₁ ++ e :: es₂ → P (es₁.foldl step s) e) :
    Along step P s es := by
  induction es generalizing s with
  | nil => trivial
  | cons e es ih =>
      exact ⟨h [] e es rfl, ih fun es₁ e' es₂ he => h (e :: es₁) e' es₂ (by rw [he]; rfl)⟩

end Along

end Wbme.Lib

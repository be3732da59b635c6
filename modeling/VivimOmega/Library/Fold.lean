import Mathlib

/-! Folds whose every step meets a condition on the state before it. -/

namespace VivimOmega.Library

variable {σ α : Type} {step : σ → α → σ} {good : σ → α → Prop}

/-- Every step of the fold is good where it is taken. -/
def Along (step : σ → α → σ) (good : σ → α → Prop) : σ → List α → Prop
  | _, [] => True
  | s, a :: rest => good s a ∧ Along step good (step s a) rest

/-- What good steps keep, of the state and of what is still to come, a fold of good steps keeps. -/
lemma Along.invariant {I : σ → List α → Prop} (hstep : ∀ (s : σ) (a : α) (rest : List α), I s (a :: rest) → good s a → I (step s a) rest)
    {s : σ} {l : List α} (h : Along step good s l) (hs : I s l) : I (l.foldl step s) [] := by
  induction l generalizing s with
  | nil => exact hs
  | cons a rest ih =>
    obtain ⟨hgood, hrest⟩ := h
    exact ih hrest (hstep s a rest hs hgood)

lemma foldl_invariant {I : σ → Prop} (hstep : ∀ (s : σ) (a : α), I s → I (step s a)) {s : σ} (l : List α) (hs : I s) :
    I (l.foldl step s) := by
  induction l generalizing s with
  | nil => exact hs
  | cons a rest ih => exact ih (hstep s a hs)

/-- A fold that ends well took good steps, if an end that is good proves each step to be. -/
lemma along_of_end {I P : σ → Prop} (hkeep : ∀ (s : σ) (a : α), I s → I (step s a))
    (hgood : ∀ (s : σ) (a : α) (rest : List α), I s → P (rest.foldl step (step s a)) → good s a) {s : σ} (l : List α) (hs : I s)
    (hend : P (l.foldl step s)) : Along step good s l := by
  induction l generalizing s with
  | nil => exact trivial
  | cons a rest ih => exact ⟨hgood s a rest hs hend, ih (hkeep s a hs) hend⟩

end VivimOmega.Library

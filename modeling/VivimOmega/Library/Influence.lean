import Mathlib

/-! What the hidden events of a run change in the answers to the others: two runs of one component, with these
events and without them. -/

namespace VivimOmega.Library

/-- A component that takes every event, and answers some of them. -/
structure Reactor (σ ε α : Type) where
  step : σ → ε → σ
  answer : σ → ε → Option α

namespace Reactor

variable {σ ε α : Type}

def answers (M : Reactor σ ε α) : σ → List ε → List α
  | _, [] => []
  | s, e :: es => (M.answer s e).toList ++ answers M (M.step s e) es

/-- The events of a run, each with the state that it finds. -/
def visited (M : Reactor σ ε α) : σ → List ε → List (σ × ε)
  | _, [] => []
  | s, e :: es => (s, e) :: visited M (M.step s e) es

variable (M : Reactor σ ε α) (live : ε → Bool) (R : σ → σ → Prop) (good : σ → ε → Prop) {s t : σ}

/-- Where the states of the two runs stay related, the answers agree just if each of them does. -/
lemma answers_filter_iff (hsilent : ∀ s e, live e = false → M.answer s e = none)
    (hhidden : ∀ s t e, R s t → live e = false → R (M.step s e) t)
    (hstep : ∀ s t e, R s t → live e = true → R (M.step s e) (M.step t e))
    (hshape : ∀ s t e, (M.answer s e).toList.length = (M.answer t e).toList.length)
    (hgood : ∀ s t e, R s t → live e = true → (M.answer s e = M.answer t e ↔ good s e))
    (es : List ε) (h : R s t) : M.answers s es = M.answers t (es.filter live) ↔
      ∀ x ∈ M.visited s es, live x.2 = true → good x.1 x.2 := by
  induction es generalizing s t with
  | nil => exact ⟨fun _ => nofun, fun _ => rfl⟩
  | cons e es ih =>
    rw [answers, visited, List.forall_mem_cons]
    cases hlive : live e with
    | false =>
      have hrest := ih (hhidden s t e h hlive)
      rw [List.filter_cons_of_neg (by simp [hlive]), hsilent s e hlive]
      exact hrest.trans ⟨fun hall => ⟨nofun, hall⟩, And.right⟩
    | true =>
      rw [List.filter_cons_of_pos hlive, answers]
      have hrest := ih (hstep s t e h hlive)
      constructor
      · intro heq
        obtain ⟨hone, htail⟩ := List.append_inj heq (hshape s t e)
        refine ⟨fun _ => (hgood s t e h hlive).mp ?_, hrest.mp htail⟩
        exact Option.ext fun a => by rw [← Option.mem_toList, hone, Option.mem_toList]
      · rintro ⟨hone, htail⟩
        rw [(hgood s t e h hlive).mpr (hone rfl), hrest.mpr htail]

end Reactor

end VivimOmega.Library

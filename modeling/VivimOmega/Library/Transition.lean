import Mathlib

/-! Deterministic systems driven by events, and the states their guarded runs reach. -/

namespace VivimOmega.Library

structure System (σ ε : Type) where
  init : σ → Prop
  step : σ → ε → Option σ

namespace System

variable {σ ε : Type} (M : System σ ε)

/-- The states reached by runs all of whose steps meet `ok`. -/
inductive Reachable (ok : σ → ε → Prop) : σ → Prop
  | start {s} : M.init s → Reachable ok s
  | next {s e t} : Reachable ok s → ok s e → M.step s e = some t → Reachable ok t

inductive Later (ok : σ → ε → Prop) (s : σ) : σ → Prop
  | refl : Later ok s s
  | next {t e u} : Later ok s t → ok t e → M.step t e = some u → Later ok s u

/-- A run with the steps that it took. -/
inductive Run : List (σ × ε × σ) → σ → Prop
  | start {s} : M.init s → Run [] s
  | next {steps s e t} : Run steps s → M.step s e = some t → Run (steps ++ [(s, e, t)]) t

def free (_ : σ) (_ : ε) : Prop := True

instance (s : σ) (e : ε) : Decidable (free s e) := isTrue trivial

variable {M} {ok ok' : σ → ε → Prop} {s t u : σ} {e : ε}

lemma Reachable.mono (hok : ∀ s e, ok s e → ok' s e) (h : M.Reachable ok s) :
    M.Reachable ok' s := by
  induction h with
  | start hi => exact .start hi
  | next _ ho hs ih => exact .next ih (hok _ _ ho) hs

lemma Reachable.free (h : M.Reachable ok s) : M.Reachable System.free s :=
  h.mono (fun _ _ _ => trivial)

lemma Reachable.invariant {P : σ → Prop} (hinit : ∀ s, M.init s → P s)
    (hstep : ∀ s e t, M.Reachable ok s → P s → ok s e → M.step s e = some t → P t)
    (h : M.Reachable ok s) : P s := by
  induction h with
  | start hi => exact hinit _ hi
  | next hr ho hs ih => exact hstep _ _ _ hr ih ho hs

lemma Run.forall {P : σ × ε × σ → Prop} {steps : List (σ × ε × σ)}
    (hstep : ∀ s e t, M.Reachable free s → M.step s e = some t → P (s, e, t)) (h : M.Run steps s) :
    M.Reachable free s ∧ ∀ x ∈ steps, P x := by
  induction h with
  | start hi => exact ⟨.start hi, nofun⟩
  | next _ he ih =>
    obtain ⟨hreach, hall⟩ := ih
    refine ⟨hreach.next trivial he, fun x hx => ?_⟩
    obtain hold | hnew := List.mem_append.mp hx
    · exact hall x hold
    · obtain rfl := List.mem_singleton.mp hnew
      exact hstep _ _ _ hreach he

/-- A run keeps to a law exactly as long as its steps meet `ok`, when a step that meets `ok` keeps the law and the
invariant, and the first step that does not breaks the law. -/
lemma Run.lawful_iff {P : σ → Prop} {law : σ × ε × σ → Prop} (hinit : ∀ s, M.init s → P s)
    (hkeep : ∀ s e t, P s → ok s e → M.step s e = some t → P t)
    (hlaw : ∀ s e t, M.Reachable System.free s → P s → M.step s e = some t → (law (s, e, t) ↔ ok s e))
    {steps : List (σ × ε × σ)} (h : M.Run steps s) :
    (∀ x ∈ steps, law x) ↔ ∀ x ∈ steps, ok x.1 x.2.1 := by
  suffices hh : M.Reachable System.free s ∧ ((∀ x ∈ steps, ok x.1 x.2.1) → P s) ∧
      ((∀ x ∈ steps, law x) ↔ ∀ x ∈ steps, ok x.1 x.2.1) from hh.2.2
  induction h with
  | start hi => exact ⟨.start hi, fun _ => hinit _ hi, by simp⟩
  | next hrun he ih =>
    obtain ⟨hreach, hinv, hiff⟩ := ih
    refine ⟨hreach.next trivial he, fun hall => ?_, ?_⟩
    · simp only [List.forall_mem_append, List.forall_mem_singleton] at hall
      exact hkeep _ _ _ (hinv hall.1) hall.2 he
    · simp only [List.forall_mem_append, List.forall_mem_singleton]
      refine ⟨fun ⟨hold, hnew⟩ => ?_, fun ⟨hold, hnew⟩ => ?_⟩
      · have hsound := hiff.mp hold
        exact ⟨hsound, (hlaw _ _ _ hreach (hinv hsound) he).mp hnew⟩
      · exact ⟨hiff.mpr hold, (hlaw _ _ _ hreach (hinv hold) he).mpr hnew⟩

lemma Later.reachable (hs : M.Reachable ok s) (h : M.Later ok s t) : M.Reachable ok t := by
  induction h with
  | refl => exact hs
  | next _ ho he ih => exact .next ih ho he

lemma Later.invariant {P : σ → Prop} (hs : P s)
    (hstep : ∀ t e u, P t → ok t e → M.step t e = some u → P u) (h : M.Later ok s t) : P t := by
  induction h with
  | refl => exact hs
  | next _ ho he ih => exact hstep _ _ _ ih ho he

section Execution

variable [∀ s e, Decidable (ok s e)]

/-- Runs the events in order and stops at the first one that is disabled or breaks the guard. -/
def exec (M : System σ ε) (ok : σ → ε → Prop) [∀ s e, Decidable (ok s e)] :
    σ → List ε → Option σ
  | s, [] => some s
  | s, e :: es => if ok s e then (M.step s e).bind (fun t => exec M ok t es) else none

lemma exec_later {es : List ε} (h : M.exec ok s es = some t) : M.Later ok s t := by
  suffices hh : ∀ r, M.Later ok r s → M.Later ok r t from hh s .refl
  induction es generalizing s with
  | nil =>
    intro r hr
    obtain rfl : s = t := by simpa [exec] using h
    exact hr
  | cons e es ih =>
    intro r hr
    simp only [exec] at h
    split_ifs at h with ho
    obtain ⟨m, hm, hrest⟩ := Option.bind_eq_some_iff.mp h
    exact ih hrest r (.next hr ho hm)

lemma exec_spec {f : σ → Bool} {es : List ε} (hi : M.init s)
    (h : (M.exec ok s es).map f = some true) : ∃ t, M.Reachable ok t ∧ f t = true := by
  obtain ⟨t, ht, hf⟩ := Option.map_eq_some_iff.mp h
  exact ⟨t, (exec_later ht).reachable (.start hi), hf⟩

lemma exec_reachable {es : List ε} (hi : M.init s) (h : M.exec ok s es = some t) :
    M.Reachable ok t :=
  (exec_later h).reachable (.start hi)

lemma exec_append (es fs : List ε) :
    M.exec ok s (es ++ fs) = (M.exec ok s es).bind (fun t => M.exec ok t fs) := by
  induction es generalizing s with
  | nil => rfl
  | cons e es ih =>
    simp only [List.cons_append, exec]
    split_ifs
    · rw [Option.bind_assoc]
      congr 1
      funext t
      exact ih
    · rfl

lemma exec_run {es : List ε} (hi : M.init s) (h : M.exec ok s es = some t) :
    ∃ steps, M.Run steps t ∧ steps.map (fun x => x.2.1) = es ∧ ∀ x ∈ steps, ok x.1 x.2.1 := by
  induction es using List.reverseRecOn generalizing t with
  | nil =>
    obtain rfl : s = t := by simpa [exec] using h
    exact ⟨[], .start hi, rfl, by simp⟩
  | append_singleton es e ih =>
    rw [exec_append] at h
    obtain ⟨m, hm, hlast⟩ := Option.bind_eq_some_iff.mp h
    rw [exec] at hlast
    split_ifs at hlast with ho
    obtain ⟨u, hu, hrest⟩ := Option.bind_eq_some_iff.mp hlast
    obtain rfl : u = t := by simpa [exec] using hrest
    obtain ⟨steps, hrun, hevents, hall⟩ := ih hm
    refine ⟨steps ++ [(m, e, u)], hrun.next hu, by simp [hevents], ?_⟩
    simp only [List.forall_mem_append, List.forall_mem_singleton]
    exact ⟨hall, ho⟩

/-- A run seen at one of its steps: the state before it, the step, and the rest of the run. -/
lemma exec_split {f g : σ → Bool} {es fs : List ε} (hi : M.init s)
    (hbefore : (M.exec ok s es).map g = some true)
    (hafter : (M.exec ok s (es ++ e :: fs)).map f = some true) :
    ∃ t u v, M.Reachable ok t ∧ g t = true ∧ ok t e ∧ M.step t e = some u ∧
      M.exec ok s (es ++ [e]) = some u ∧ M.Later ok u v ∧ f v = true := by
  obtain ⟨t, ht, hg⟩ := Option.map_eq_some_iff.mp hbefore
  obtain ⟨v, hv, hf⟩ := Option.map_eq_some_iff.mp hafter
  rw [exec_append, ht, Option.bind_some, exec] at hv
  split_ifs at hv with ho
  obtain ⟨u, hu, hrest⟩ := Option.bind_eq_some_iff.mp hv
  have hstep : M.exec ok s (es ++ [e]) = some u := by
    rw [exec_append, ht, Option.bind_some, exec, if_pos ho, hu]
    rfl
  exact ⟨t, u, v, exec_reachable hi ht, hg, ho, hu, hstep, exec_later hrest, hf⟩

/-- A run seen at its last step. -/
lemma exec_step {f g : σ → Bool} {es : List ε} (hi : M.init s)
    (hbefore : (M.exec ok s es).map g = some true)
    (hafter : (M.exec ok s (es ++ [e])).map f = some true) :
    ∃ t u, M.Reachable ok t ∧ g t = true ∧ ok t e ∧ M.step t e = some u ∧ f u = true := by
  obtain ⟨t, ht, hg⟩ := Option.map_eq_some_iff.mp hbefore
  obtain ⟨v, hv, hf⟩ := Option.map_eq_some_iff.mp hafter
  rw [exec_append, ht, Option.bind_some, exec] at hv
  split_ifs at hv with ho
  obtain ⟨u, hu, hrest⟩ := Option.bind_eq_some_iff.mp hv
  obtain rfl : u = v := by simpa [exec] using hrest
  exact ⟨t, u, exec_reachable hi ht, hg, ho, hu, hf⟩

end Execution

end System

end VivimOmega.Library

import Mathlib

/-! Tokens cut out of a text one after the other, with what is skipped between them. -/

namespace VivimOmega.Library

variable {α T : Type} {skipped : α → Bool} {text : T → List α} {start stop : T → ℕ}

inductive Tiles (skipped : α → Bool) (text : T → List α) (start stop : T → ℕ) : ℕ → List α → List T → Prop
  | nil {pos : ℕ} : Tiles skipped text start stop pos [] []
  | gap {pos : ℕ} {a : α} {rest : List α} {ts : List T} (ha : skipped a = true)
    (h : Tiles skipped text start stop (pos + 1) rest ts) : Tiles skipped text start stop pos (a :: rest) ts
  | token {pos : ℕ} {t : T} {rest : List α} {ts : List T} (hne : text t ≠ []) (hstart : start t = pos)
    (hstop : stop t = pos + (text t).length) (h : Tiles skipped text start stop (pos + (text t).length) rest ts) :
    Tiles skipped text start stop pos (text t ++ rest) (t :: ts)

namespace Tiles

variable {pos k : ℕ} {s s' : List α} {ts ts' : List T} {t : T} {a : α}

lemma append (h : Tiles skipped text start stop pos s ts)
    (h' : Tiles skipped text start stop (pos + s.length) s' ts') :
    Tiles skipped text start stop pos (s ++ s') (ts ++ ts') := by
  induction h with
  | nil => exact h'
  | @gap pos a rest ts ha h ih =>
    apply gap ha
    apply ih
    have hlength : pos + 1 + rest.length = pos + (a :: rest).length := by simp; omega
    rwa [hlength]
  | @token pos t rest ts hne hstart hstop h ih =>
    rw [List.append_assoc]
    apply token hne hstart hstop
    apply ih
    have hlength : pos + (text t).length + rest.length = pos + (text t ++ rest).length := by simp; omega
    rwa [hlength]

lemma single (hne : text t ≠ []) (hstart : start t = pos) (hstop : stop t = pos + (text t).length) :
    Tiles skipped text start stop pos (text t) [t] := by
  have hone : Tiles skipped text start stop pos (text t ++ []) [t] := token hne hstart hstop nil
  rwa [List.append_nil] at hone

lemma bounds (h : Tiles skipped text start stop pos s ts) (ht : t ∈ ts) :
    pos ≤ start t ∧ start t < stop t ∧ stop t ≤ pos + s.length := by
  induction h with
  | nil => exact absurd ht List.not_mem_nil
  | gap _ _ ih =>
    have hrest := ih ht
    simp only [List.length_cons]
    omega
  | @token pos u rest ts hne hstart hstop _ ih =>
    have hpos := List.length_pos_iff.mpr hne
    simp only [List.length_append]
    obtain rfl | hmem := List.mem_cons.mp ht
    · omega
    · have hrest := ih hmem
      omega

/-- No token begins before the one in front of it ends. -/
lemma ordered (h : Tiles skipped text start stop pos s ts) : ts.Pairwise fun t u => stop t ≤ start u := by
  induction h with
  | nil => exact List.Pairwise.nil
  | gap _ _ ih => exact ih
  | token _ _ hstop h ih =>
    refine List.pairwise_cons.mpr ⟨fun u hu => ?_, ih⟩
    rw [hstop]
    exact (h.bounds hu).1

/-- Every token is a piece of the text, between what is before and what is after it. -/
lemma cut (h : Tiles skipped text start stop pos s ts) (ht : t ∈ ts) :
    ∃ before after, s = before ++ text t ++ after ∧ start t = pos + before.length ∧
      stop t = pos + (before ++ text t).length := by
  induction h with
  | nil => exact absurd ht List.not_mem_nil
  | @gap pos a rest ts _ _ ih =>
    obtain ⟨before, after, hs, hstart, hstop⟩ := ih ht
    refine ⟨a :: before, after, by rw [hs]; rfl, ?_, ?_⟩
    · simp only [List.length_cons]
      omega
    · simp only [List.cons_append, List.length_cons]
      omega
  | @token pos u rest ts hne hstart hstop h ih =>
    obtain rfl | hmem := List.mem_cons.mp ht
    · exact ⟨[], rest, rfl, hstart, hstop⟩
    · obtain ⟨before, after, hs, hstart, hstop⟩ := ih hmem
      refine ⟨text u ++ before, after, by simp [hs], ?_, ?_⟩
      · simp only [List.length_append]
        omega
      · simp only [List.length_append] at hstop ⊢
        omega

/-- What no token covers is skipped. -/
lemma skipped_of_uncovered (h : Tiles skipped text start stop pos s ts) (ha : s[k]? = some a)
    (hfree : ∀ t ∈ ts, ¬ (start t ≤ pos + k ∧ pos + k < stop t)) : skipped a = true := by
  induction h generalizing k with
  | nil => simp at ha
  | @gap pos b rest ts hb h ih =>
    cases k with
    | zero =>
      obtain rfl : b = a := by simpa using ha
      exact hb
    | succ k =>
      refine ih (k := k) (by simpa using ha) fun t ht => ?_
      have hnot := hfree t ht
      omega
  | @token pos u rest ts hne hstart hstop h ih =>
    have hout := hfree u List.mem_cons_self
    have hlong : (text u).length ≤ k := by omega
    obtain ⟨m, rfl⟩ := Nat.exists_eq_add_of_le hlong
    rw [List.getElem?_append_right hlong, Nat.add_sub_cancel_left] at ha
    refine ih ha fun t ht => ?_
    have hnot := hfree t (List.mem_cons_of_mem _ ht)
    omega

/-- Tokens may be told apart by what is neither their text nor their place. -/
lemma congr (h : Tiles skipped text start stop pos s ts)
    (hsame : List.Forall₂ (fun t t' => text t' = text t ∧ start t' = start t ∧ stop t' = stop t) ts ts') :
    Tiles skipped text start stop pos s ts' := by
  induction h generalizing ts' with
  | nil =>
    cases hsame
    exact nil
  | gap ha _ ih => exact gap ha (ih hsame)
  | @token pos t rest ts hne hstart hstop h ih =>
    obtain ⟨t', rest', ⟨htext, hstart', hstop'⟩, hrest, rfl⟩ := List.forall₂_cons_left_iff.mp hsame
    rw [← htext] at hne hstop ⊢
    exact token hne (hstart'.trans hstart) (hstop'.trans hstop) (htext ▸ ih hrest)

end Tiles

end VivimOmega.Library

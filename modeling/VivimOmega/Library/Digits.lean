import Mathlib

/-! Numbers written with digits, the highest one first, and padded to a width: they are ordered as their digits are. -/

namespace VivimOmega.Library

/-- `n.toString(b)`, as its digits. -/
def digitsOf (b n : ℕ) : List ℕ := if n = 0 then [0] else (Nat.digits b n).reverse

/-- `padStart` with zeros. -/
def padDigits (width : ℕ) (l : List ℕ) : List ℕ := List.replicate (width - l.length) 0 ++ l

section Order

variable {b : ℕ} {l m : List ℕ}

lemma lt_of_ofDigits_lt (hb : 1 < b) (hlen : l.length = m.length) (hl : ∀ d ∈ l, d < b)
    (h : Nat.ofDigits b l.reverse < Nat.ofDigits b m.reverse) (hm : ∀ d ∈ m, d < b) : l < m := by
  induction l generalizing m with
  | nil =>
    obtain rfl := List.eq_nil_of_length_eq_zero hlen.symm
    exact absurd h (lt_irrefl _)
  | cons d l ih =>
    cases m with
    | nil => cases hlen
    | cons e m =>
      have hlen' : l.length = m.length := Nat.succ.inj hlen
      rw [Nat.ofDigits_reverse_cons, Nat.ofDigits_reverse_cons, hlen'] at h
      have hlow : Nat.ofDigits b m.reverse < b ^ m.length := by
        rw [← List.length_reverse]
        exact Nat.ofDigits_lt_base_pow_length hb fun x hx => hm x (List.mem_cons_of_mem _ (List.mem_reverse.mp hx))
      rw [List.cons_lt_cons_iff]
      obtain hlt | rfl | hgt := lt_trichotomy d e
      · exact Or.inl hlt
      · refine Or.inr ⟨rfl, ih hlen' (fun x hx => hl x (List.mem_cons_of_mem _ hx)) ?_
          fun x hx => hm x (List.mem_cons_of_mem _ hx)⟩
        exact Nat.lt_of_add_lt_add_right h
      · have hstep : b ^ m.length * (e + 1) ≤ b ^ m.length * d := Nat.mul_le_mul_left _ hgt
        rw [Nat.mul_succ] at hstep
        omega

lemma map_lt_map {f : ℕ → ℕ} (hf : ∀ d < b, ∀ e < b, d < e → f d < f e) (hl : ∀ d ∈ l, d < b) (hm : ∀ d ∈ m, d < b)
    (h : l < m) : l.map f < m.map f := by
  induction l generalizing m with
  | nil =>
    cases m with
    | nil => exact absurd h (lt_irrefl _)
    | cons e m => exact List.nil_lt_cons _ _
  | cons d l ih =>
    cases m with
    | nil => exact absurd h (List.not_lt_nil _)
    | cons e m =>
      rw [List.map_cons, List.map_cons, List.cons_lt_cons_iff]
      rw [List.cons_lt_cons_iff] at h
      obtain hlt | ⟨rfl, htail⟩ := h
      · exact Or.inl (hf d (hl d List.mem_cons_self) e (hm e List.mem_cons_self) hlt)
      · exact Or.inr ⟨rfl, ih (fun x hx => hl x (List.mem_cons_of_mem _ hx))
          (fun x hx => hm x (List.mem_cons_of_mem _ hx)) htail⟩

lemma append_lt_append (hlen : l.length = m.length) (h : l < m) (x y : List ℕ) : l ++ x < m ++ y := by
  induction l generalizing m with
  | nil =>
    obtain rfl := List.eq_nil_of_length_eq_zero hlen.symm
    exact absurd h (lt_irrefl _)
  | cons d l ih =>
    cases m with
    | nil => cases hlen
    | cons e m =>
      rw [List.cons_append, List.cons_append, List.cons_lt_cons_iff]
      rw [List.cons_lt_cons_iff] at h
      exact h.imp_right fun htail => ⟨htail.1, ih (Nat.succ.inj hlen) htail.2⟩

end Order

section Numerals

variable {b n width : ℕ}

lemma ofDigits_digitsOf (b n : ℕ) : Nat.ofDigits b (digitsOf b n).reverse = n := by
  unfold digitsOf
  split_ifs with hn
  · rw [hn]
    rfl
  · rw [List.reverse_reverse, Nat.ofDigits_digits]

lemma ofDigits_padDigits (l : List ℕ) : Nat.ofDigits b (padDigits width l).reverse = Nat.ofDigits b l.reverse := by
  rw [padDigits, List.reverse_append, List.reverse_replicate, Nat.ofDigits_append_replicate_zero]

lemma digitsOf_lt (hb : 1 < b) : ∀ d ∈ digitsOf b n, d < b := by
  unfold digitsOf
  split_ifs
  · rw [List.forall_mem_singleton]
    omega
  · exact fun d hd => Nat.digits_lt_base hb (List.mem_reverse.mp hd)

lemma padDigits_lt (hb : 1 < b) : ∀ d ∈ padDigits width (digitsOf b n), d < b := by
  refine List.forall_mem_append.mpr ⟨fun d hd => ?_, digitsOf_lt hb⟩
  rw [List.eq_of_mem_replicate hd]
  omega

lemma length_padDigits (hb : 1 < b) (hwidth : 0 < width) (hn : n < b ^ width) :
    (padDigits width (digitsOf b n)).length = width := by
  have hlen : (digitsOf b n).length ≤ width := by
    unfold digitsOf
    split_ifs
    · exact hwidth
    · rw [List.length_reverse]
      exact (Nat.digits_length_le_iff hb n).mpr hn
  rw [padDigits, List.length_append, List.length_replicate]
  omega

/-- Numerals of one width are ordered as their numbers. -/
lemma padDigits_lt_padDigits (hb : 1 < b) (hwidth : 0 < width) {k : ℕ} (hkn : k < n) (hn : n < b ^ width) :
    padDigits width (digitsOf b k) < padDigits width (digitsOf b n) := by
  refine lt_of_ofDigits_lt hb ?_ (padDigits_lt hb) ?_ (padDigits_lt hb)
  · rw [length_padDigits hb hwidth (hkn.trans hn), length_padDigits hb hwidth hn]
  · rw [ofDigits_padDigits, ofDigits_digitsOf, ofDigits_padDigits, ofDigits_digitsOf]
    exact hkn

end Numerals

end VivimOmega.Library

import Mathlib

/-! String operations on lists of characters, so that closed instances evaluate. -/

namespace VivimOmega.Library.Text

def startsWith (s p : String) : Bool := p.toList.isPrefixOf s.toList

def endsWith (s p : String) : Bool := p.toList.isSuffixOf s.toList

def sliceFrom (s : String) (n : ℕ) : String := String.ofList (s.toList.drop n)

def sliceTo (s : String) (n : ℕ) : String := String.ofList (s.toList.take n)

/-- What `\s` matches and `trim` takes off. -/
def isBlank (c : Char) : Bool :=
  ('\t' ≤ c && c ≤ '\r') || c = ' ' || c = '\u00A0' || c = '\u1680' || ('\u2000' ≤ c && c ≤ '\u200A') ||
    c = '\u2028' || c = '\u2029' || c = '\u202F' || c = '\u205F' || c = '\u3000' || c = '\uFEFF'

/-- The index of the last occurrence of a character. -/
def lastIndexOf (s : String) (c : Char) : Option ℕ :=
  match s.toList.reverse.findIdx? (· = c) with
  | none => none
  | some i => some (s.toList.length - 1 - i)

/-- The part before the first occurrence of a character, the whole string if there is none. -/
def before (s : String) (c : Char) : String := String.ofList (s.toList.takeWhile (· ≠ c))

@[simp] lemma startsWith_append (p s : String) : startsWith (p ++ s) p = true := by
  simp [startsWith]

@[simp] lemma sliceFrom_append (p s : String) : sliceFrom (p ++ s) p.length = s := by
  simp [sliceFrom, ← String.length_toList]

lemma eq_append_of_startsWith {s p : String} (h : startsWith s p = true) :
    s = p ++ sliceFrom s p.length := by
  obtain ⟨rest, hr⟩ := List.isPrefixOf_iff_prefix.mp h
  apply String.toList_injective
  rw [String.toList_append, sliceFrom, String.toList_ofList, ← hr, ← String.length_toList]
  simp

lemma append_right_injective (p : String) : Function.Injective (p ++ ·) := by
  intro s t h
  have hh := congrArg String.toList h
  simp only [String.toList_append, List.append_cancel_left_eq] at hh
  exact String.toList_injective hh

lemma repr_injective : Function.Injective Nat.repr := by
  intro m n h
  have hdigits := congrArg String.toList h
  rw [Nat.toList_repr, Nat.toList_repr] at hdigits
  rw [← Nat.ofDigitChars_ten_toDigits (n := m), hdigits, Nat.ofDigitChars_ten_toDigits]

lemma toString_int_injective : Function.Injective (toString : ℤ → String) := by
  have hsign : ∀ m n : ℕ, Nat.repr m ≠ "-" ++ Nat.repr n := by
    intro m n h
    have hmem : '-' ∈ (Nat.repr m).toList := by
      rw [h]
      simp
    rw [Nat.toList_repr] at hmem
    have hdigit := Nat.isDigit_of_mem_toDigits (by decide) (by decide) hmem
    exact absurd hdigit (by decide)
  intro a b h
  cases a with
  | ofNat m =>
    cases b with
    | ofNat n => exact congrArg Int.ofNat (repr_injective h)
    | negSucc n => exact absurd h (hsign m (n + 1))
  | negSucc m =>
    cases b with
    | ofNat n => exact absurd h.symm (hsign n (m + 1))
    | negSucc n =>
      have hsucc := repr_injective (append_right_injective "-" h)
      rw [Nat.succ.inj hsucc]

/-- The text of an integer has a sign and digits only. -/
lemma mem_toString_int {c : Char} {n : ℤ} (h : c ∈ (toString n).toList) :
    c = '-' ∨ c.isDigit = true := by
  have hnat : ∀ m : ℕ, c ∈ (Nat.repr m).toList → c.isDigit = true := by
    intro m hm
    rw [Nat.toList_repr] at hm
    exact Nat.isDigit_of_mem_toDigits (by decide) (by decide) hm
  cases n with
  | ofNat m => exact Or.inr (hnat m h)
  | negSucc m =>
    have hneg : toString (Int.negSucc m) = "-" ++ Nat.repr (m + 1) := rfl
    rw [hneg, String.toList_append, List.mem_append] at h
    rcases h with h | h
    · exact Or.inl (List.mem_singleton.mp h)
    · exact Or.inr (hnat _ h)

section Separated

variable {α : Type} [BEq α] [LawfulBEq α] {x : α}

lemma count_intercalate {ls : List (List α)} (hne : ls ≠ []) :
    ([x].intercalate ls).count x + 1 = ls.length + (ls.map fun l => l.count x).sum := by
  induction ls with
  | nil => exact absurd rfl hne
  | cons l rest ih =>
    cases rest with
    | nil =>
      simp
      omega
    | cons m rest =>
      have hrest := ih (by simp)
      simp only [List.intercalate_cons_cons, List.count_append, List.count_singleton_self, List.map_cons,
        List.sum_cons, List.length_cons] at hrest ⊢
      omega

/-- Parts without the separator are told apart from as many parts of any kind. -/
lemma intercalate_injective {ls ms : List (List α)} (hne : ls ≠ []) (hlen : ls.length = ms.length)
    (hclean : ∀ l ∈ ls, x ∉ l) (h : [x].intercalate ls = [x].intercalate ms) : ls = ms := by
  have hms : ms ≠ [] := by
    rintro rfl
    exact hne (List.eq_nil_of_length_eq_zero hlen)
  have hzero : (ls.map fun l => l.count x).sum = 0 := by
    apply List.sum_eq_zero_iff_forall_eq_nat.mpr
    intro n hn
    obtain ⟨l, hl, rfl⟩ := List.mem_map.mp hn
    exact List.count_eq_zero.mpr (hclean l hl)
  have hcount := count_intercalate (x := x) hne
  have hcount' := count_intercalate (x := x) hms
  rw [h] at hcount
  have hzero' : (ms.map fun l => l.count x).sum = 0 := by omega
  have hclean' : ∀ m ∈ ms, x ∉ m := by
    intro m hm
    have hcount := List.sum_eq_zero_iff_forall_eq_nat.mp hzero' (m.count x) (List.mem_map_of_mem hm)
    exact List.count_eq_zero.mp hcount
  rw [← List.splitOn_intercalate x hclean hne, h, List.splitOn_intercalate x hclean' hms]

end Separated

lemma lastIndexOf_append {a b : List Char} {c : Char} (hb : c ∉ b) :
    lastIndexOf (String.ofList (a ++ c :: b)) c = some a.length := by
  have hnone : b.reverse.findIdx? (· = c) = none := by
    apply List.findIdx?_eq_none_iff.mpr
    intro d hd
    have hmem : d ∈ b := List.mem_reverse.mp hd
    simp only [decide_eq_false_iff_not]
    rintro rfl
    exact hb hmem
  have hfind : (a ++ c :: b).reverse.findIdx? (· = c) = some b.length := by
    rw [List.reverse_append, List.reverse_cons, List.append_assoc, List.findIdx?_append, hnone]
    simp [List.findIdx?_cons]
  rw [lastIndexOf, String.toList_ofList, hfind]
  simp

lemma lastIndexOf_eq_none {s : String} {c : Char} (hs : c ∉ s.toList) : lastIndexOf s c = none := by
  have hnone : s.toList.reverse.findIdx? (· = c) = none := by
    apply List.findIdx?_eq_none_iff.mpr
    intro d hd
    have hmem : d ∈ s.toList := List.mem_reverse.mp hd
    simp only [decide_eq_false_iff_not]
    rintro rfl
    exact hs hmem
  rw [lastIndexOf, hnone]

end VivimOmega.Library.Text

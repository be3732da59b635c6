import Mathlib

/-! Arithmetic of doubles on the rationals: every operation rounds its exact result. -/

namespace VivimOmega.Library

def exponent (q : ℚ) : ℤ :=
  let e : ℤ := (Nat.log2 q.num.natAbs : ℤ) - Nat.log2 q.den
  if |q| < 2 ^ e then e - 1 else e

/-- The nearest integer, a tie to the even one. -/
def nearest (q : ℚ) : ℤ := if q - ⌊q⌋ < 1 / 2 ∨ q - ⌊q⌋ = 1 / 2 ∧ ⌊q⌋ % 2 = 0 then ⌊q⌋ else ⌊q⌋ + 1

/-- The double nearest to a rational. -/
def double (q : ℚ) : ℚ :=
  let unit : ℚ := 2 ^ max (exponent q - 52) (-1074)
  nearest (q / unit) * unit

def mathRound (q : ℚ) : ℤ := ⌊q + 1 / 2⌋

def round2 (n : ℚ) : ℚ := double (mathRound (double (n * 100)) / 100)

section Order

variable {q r : ℚ}

/-- The exponent of a positive rational is that of the power of two just below it. -/
lemma exponent_spec (h : 0 < q) : (2 : ℚ) ^ exponent q ≤ q ∧ q < 2 ^ (exponent q + 1) := by
  have hnum : q.num.natAbs ≠ 0 := by
    have hpos := Rat.num_pos.mpr h
    omega
  have hq : q = (q.num.natAbs : ℚ) / q.den := by
    rw [Nat.cast_natAbs, abs_of_nonneg (Rat.num_nonneg.mpr h.le), Rat.num_div_den]
  have hden : (0 : ℚ) < q.den := by exact_mod_cast q.den_pos
  have hnlow : (2 : ℚ) ^ (Nat.log2 q.num.natAbs : ℤ) ≤ q.num.natAbs := by
    rw [zpow_natCast]
    exact_mod_cast Nat.log2_self_le hnum
  have hnhigh : (q.num.natAbs : ℚ) < 2 ^ ((Nat.log2 q.num.natAbs : ℤ) + 1) := by
    rw [← Nat.cast_succ, zpow_natCast]
    exact_mod_cast Nat.lt_log2_self
  have hdlow : (2 : ℚ) ^ (Nat.log2 q.den : ℤ) ≤ q.den := by
    rw [zpow_natCast]
    exact_mod_cast Nat.log2_self_le q.den_nz
  have hdhigh : (q.den : ℚ) < 2 ^ ((Nat.log2 q.den : ℤ) + 1) := by
    rw [← Nat.cast_succ, zpow_natCast]
    exact_mod_cast Nat.lt_log2_self
  set e : ℤ := (Nat.log2 q.num.natAbs : ℤ) - Nat.log2 q.den with he
  have hhigh : q < 2 ^ (e + 1) := by
    rw [hq, div_lt_iff₀ hden]
    calc (q.num.natAbs : ℚ) < 2 ^ ((Nat.log2 q.num.natAbs : ℤ) + 1) := hnhigh
      _ = 2 ^ (e + 1) * 2 ^ (Nat.log2 q.den : ℤ) := by
        rw [← zpow_add₀ two_ne_zero]
        congr 1
        omega
      _ ≤ 2 ^ (e + 1) * q.den := by gcongr
  have hlow : (2 : ℚ) ^ (e - 1) ≤ q := by
    rw [hq, le_div_iff₀ hden]
    calc (2 : ℚ) ^ (e - 1) * q.den ≤ 2 ^ (e - 1) * 2 ^ ((Nat.log2 q.den : ℤ) + 1) := by gcongr
      _ = 2 ^ (Nat.log2 q.num.natAbs : ℤ) := by
        rw [← zpow_add₀ two_ne_zero]
        congr 1
        omega
      _ ≤ q.num.natAbs := hnlow
  have hexponent : exponent q = if |q| < 2 ^ e then e - 1 else e := rfl
  rw [hexponent, abs_of_pos h]
  split_ifs with hless
  · exact ⟨hlow, by rwa [sub_add_cancel]⟩
  · exact ⟨not_lt.mp hless, hhigh⟩

lemma exponent_mono (hq : 0 < q) (h : q ≤ r) : exponent q ≤ exponent r := by
  have hlow := (exponent_spec hq).1
  have hhigh := (exponent_spec (hq.trans_le h)).2
  have hpow : (2 : ℚ) ^ exponent q < 2 ^ (exponent r + 1) := (hlow.trans h).trans_lt hhigh
  have hlt := (zpow_lt_zpow_iff_right₀ one_lt_two).mp hpow
  omega

lemma nearest_int (n : ℤ) : nearest n = n := by
  rw [nearest, Int.floor_intCast, if_pos]
  left
  norm_num

lemma nearest_mono (h : q ≤ r) : nearest q ≤ nearest r := by
  have hfloor := Int.floor_mono h
  rcases hfloor.lt_or_eq with hlt | heq
  · rw [nearest, nearest]
    split_ifs <;> omega
  · rw [nearest, nearest, heq]
    split_ifs with hq hr hr
    · exact le_refl _
    · omega
    · exfalso
      apply hq
      rcases hr with hr | ⟨hr, heven⟩
      · left
        linarith
      · rcases (sub_le_sub_right h (⌊r⌋ : ℚ)).lt_or_eq with hlt | hsame
        · left
          linarith
        · right
          exact ⟨by linarith, heven⟩
    · exact le_refl _

/-- The exponent of the last digit that a double keeps. -/
def place (q : ℚ) : ℤ := max (exponent q - 52) (-1074)

lemma double_eq (q : ℚ) : double q = nearest (q / 2 ^ place q) * 2 ^ place q := rfl

lemma double_nonneg (h : 0 ≤ q) : 0 ≤ double q := by
  have hscaled : ((0 : ℤ) : ℚ) ≤ q / 2 ^ place q := by
    rw [Int.cast_zero]
    positivity
  have hnearest := nearest_mono hscaled
  rw [nearest_int] at hnearest
  have hcast : (0 : ℚ) ≤ nearest (q / 2 ^ place q) := by exact_mod_cast hnearest
  rw [double_eq]
  positivity

lemma double_zero : double 0 = 0 := by
  have hzero := nearest_int 0
  rw [Int.cast_zero] at hzero
  rw [double_eq, zero_div, hzero, Int.cast_zero, zero_mul]

/-- A power of two that a number reaches, and whose last digit is kept, its double reaches too. -/
lemma le_double {e : ℤ} (hkept : place q ≤ e) (h : 2 ^ e ≤ q) : 2 ^ e ≤ double q := by
  obtain ⟨k, hk⟩ := Int.le.dest hkept
  have hpower : (2 : ℚ) ^ e = ((2 ^ k : ℤ) : ℚ) * 2 ^ place q := by
    push_cast
    rw [← zpow_natCast, ← zpow_add₀ two_ne_zero, ← hk, add_comm]
  rw [double_eq, hpower]
  rw [hpower] at h
  have hscaled : ((2 ^ k : ℤ) : ℚ) ≤ q / 2 ^ place q := by
    rwa [le_div_iff₀ (by positivity)]
  have hnearest := nearest_mono hscaled
  rw [nearest_int] at hnearest
  have hcast : ((2 ^ k : ℤ) : ℚ) ≤ nearest (q / 2 ^ place q) := by exact_mod_cast hnearest
  gcongr

lemma double_le {e : ℤ} (hkept : place q ≤ e) (h : q ≤ 2 ^ e) : double q ≤ 2 ^ e := by
  obtain ⟨k, hk⟩ := Int.le.dest hkept
  have hpower : (2 : ℚ) ^ e = ((2 ^ k : ℤ) : ℚ) * 2 ^ place q := by
    push_cast
    rw [← zpow_natCast, ← zpow_add₀ two_ne_zero, ← hk, add_comm]
  rw [double_eq, hpower]
  rw [hpower] at h
  have hscaled : q / 2 ^ place q ≤ ((2 ^ k : ℤ) : ℚ) := by
    rwa [div_le_iff₀ (by positivity)]
  have hnearest := nearest_mono hscaled
  rw [nearest_int] at hnearest
  have hcast : (nearest (q / 2 ^ place q) : ℚ) ≤ ((2 ^ k : ℤ) : ℚ) := by exact_mod_cast hnearest
  gcongr

/-- Rounding to doubles keeps the order of what is not negative. -/
theorem double_mono (hq : 0 ≤ q) (h : q ≤ r) : double q ≤ double r := by
  rcases hq.lt_or_eq with hpos | rfl
  · have hexponent := exponent_mono hpos h
    rcases (show place q ≤ place r from max_le_max_right _ (by omega)).lt_or_eq with hlt | heq
    · -- the larger number has a power of two between the two of them
      have hplace : place r = exponent r - 52 := by
        have hmin : -1074 ≤ place q := le_max_right _ _
        have hmax : place r = max (exponent r - 52) (-1074) := rfl
        omega
      have hless : exponent q + 1 ≤ exponent r := by
        have hkeep : exponent q - 52 ≤ place q := le_max_left _ _
        omega
      have hbelow : q ≤ 2 ^ exponent r :=
        (exponent_spec hpos).2.le.trans (zpow_le_zpow_right₀ one_le_two hless)
      have habove := (exponent_spec (hpos.trans_le h)).1
      exact (double_le (by omega) hbelow).trans (le_double (by omega) habove)
    · have hscaled : q / 2 ^ place r ≤ r / 2 ^ place r := by gcongr
      have hcast : (nearest (q / 2 ^ place r) : ℚ) ≤ nearest (r / 2 ^ place r) := by exact_mod_cast nearest_mono hscaled
      rw [double_eq, double_eq, heq]
      gcongr
  · rw [double_zero]
    exact double_nonneg h

/-- A multiple of its last place is rounded to itself. -/
lemma double_exact {n : ℤ} {e : ℤ} (hplace : place q = e) (hq : q = n * 2 ^ e) : double q = q := by
  have hratio : q / 2 ^ place q = n := by
    rw [hplace, hq, mul_div_assoc, div_self (by positivity), mul_one]
  rw [double_eq, hratio, nearest_int, hplace, ← hq]

lemma exponent_eq {e : ℤ} (hlow : 2 ^ e ≤ q) (hhigh : q < 2 ^ (e + 1)) : exponent q = e := by
  have hq : 0 < q := lt_of_lt_of_le (by positivity) hlow
  obtain ⟨hfloor, hceil⟩ := exponent_spec hq
  have hle := (zpow_lt_zpow_iff_right₀ one_lt_two).mp (hfloor.trans_lt hhigh)
  have hge := (zpow_lt_zpow_iff_right₀ one_lt_two).mp (hlow.trans_lt hceil)
  omega

lemma double_zpow {e : ℤ} (he : -1074 ≤ e) : double (2 ^ e) = 2 ^ e := by
  have hexponent : exponent ((2 : ℚ) ^ e) = e :=
    exponent_eq le_rfl (zpow_lt_zpow_right₀ one_lt_two (lt_add_one e))
  have hplace : place ((2 : ℚ) ^ e) ≤ e := by
    rw [place, hexponent]
    omega
  exact le_antisymm (double_le hplace le_rfl) (le_double hplace le_rfl)

/-- Between a power of two and the double below it there is a gap. -/
lemma double_gap {e : ℤ} (he : -1021 ≤ e) (hq : 0 ≤ q) (h : double q < 2 ^ e) : double q ≤ 2 ^ e - 2 ^ (e - 53) := by
  have hhalf : (2 : ℚ) ^ e = 2 * 2 ^ (e - 1) := by
    rw [← zpow_one_add₀ two_ne_zero]
    congr 1
    omega
  have hsmall : (2 : ℚ) ^ (e - 53) ≤ 2 ^ (e - 1) := zpow_le_zpow_right₀ one_le_two (by omega)
  rcases lt_or_ge q (2 ^ (e - 1)) with hlow | hhigh
  · have hdouble := double_mono hq hlow.le
    rw [double_zpow (by omega)] at hdouble
    linarith
  · have hless : q < 2 ^ (e - 1 + 1) := by
      rw [sub_add_cancel]
      by_contra hge
      have hdouble := double_mono (by positivity) (not_lt.mp hge)
      rw [double_zpow (by omega)] at hdouble
      exact absurd h (not_lt.mpr hdouble)
    have hplace : place q = e - 53 := by
      rw [place, exponent_eq hhigh hless]
      omega
    have hpower : (2 : ℚ) ^ e = ((2 ^ 53 : ℤ) : ℚ) * 2 ^ (e - 53) := by
      have hsplit : (2 : ℚ) ^ e = 2 ^ (53 : ℤ) * 2 ^ (e - 53) := by
        rw [← zpow_add₀ two_ne_zero, add_sub_cancel]
      rw [hsplit]
      norm_num
    rw [double_eq, hplace, hpower] at h ⊢
    have hpos : (0 : ℚ) < 2 ^ (e - 53) := by positivity
    have hn : nearest (q / 2 ^ (e - 53)) < 2 ^ 53 := by exact_mod_cast lt_of_mul_lt_mul_right h hpos.le
    have hle : (nearest (q / 2 ^ (e - 53)) : ℚ) ≤ ((2 ^ 53 : ℤ) : ℚ) - 1 := by
      have hint : nearest (q / 2 ^ (e - 53)) ≤ 2 ^ 53 - 1 := by omega
      exact_mod_cast hint
    calc (nearest (q / 2 ^ (e - 53)) : ℚ) * 2 ^ (e - 53) ≤ (((2 ^ 53 : ℤ) : ℚ) - 1) * 2 ^ (e - 53) := by gcongr
      _ = ((2 ^ 53 : ℤ) : ℚ) * 2 ^ (e - 53) - 2 ^ (e - 53) := by ring

/-- A double below a power of two stays below one when it is divided by it. -/
lemma double_div_lt_one {e : ℤ} (he : -1021 ≤ e) (hq : 0 ≤ q) (h : double q < 2 ^ e) :
    0 ≤ double (double q / 2 ^ e) ∧ double (double q / 2 ^ e) < 1 := by
  have hnonneg := double_nonneg hq
  refine ⟨double_nonneg (by positivity), ?_⟩
  have hquotient : double q / 2 ^ e ≤ 1 - 2 ^ (-53 : ℤ) := by
    rw [div_le_iff₀ (by positivity), sub_mul, one_mul, ← zpow_add₀ two_ne_zero, neg_add_eq_sub]
    exact double_gap he hq h
  have hlast : double (1 - 2 ^ (-53 : ℤ)) = 1 - 2 ^ (-53 : ℤ) := by
    have hexponent : exponent (1 - 2 ^ (-53 : ℤ)) = -1 := by
      apply exponent_eq <;> norm_num
    refine double_exact (n := 2 ^ 53 - 1) (e := -53) ?_ ?_
    · rw [place, hexponent]
      norm_num
    · norm_num
  have hmono := double_mono (by positivity) hquotient
  rw [hlast] at hmono
  linarith [show (0 : ℚ) < 2 ^ (-53 : ℤ) by positivity]

end Order

end VivimOmega.Library

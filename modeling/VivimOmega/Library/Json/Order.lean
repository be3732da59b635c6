import VivimOmega.Library.Double
import VivimOmega.Library.Json.Number

/-! The order of numbers, in which NaN has no place, and the floor of a quotient. -/

namespace VivimOmega.Library.Json

section Order

def Decimal.value (d : Decimal) : ℚ := digitsValue d.digits * 10 ^ (d.point - d.digits.length)

/-- The place of a number on the line between the infinities. -/
def Number.rank : Number → Option (WithBot (WithTop ℚ))
  | .nan => none
  | .infinity negative => some (if negative then ⊥ else ((⊤ : WithTop ℚ) : WithBot (WithTop ℚ)))
  | .zero => some ((0 : ℚ) : WithTop ℚ)
  | .finite negative d => some ((if negative then -d.value else d.value : ℚ) : WithTop ℚ)

/-- The comparison is false where one of the two is NaN. -/
def Number.lt (m n : Number) : Bool :=
  match m.rank, n.rank with
  | some a, some b => decide (a < b)
  | _, _ => false

def Number.le (m n : Number) : Bool :=
  match m.rank, n.rank with
  | some a, some b => decide (a ≤ b)
  | _, _ => false

variable {m n : Number} {k l : ℤ}

lemma rank_isSome : n.rank.isSome = true ↔ n ≠ .nan := by
  cases n <;> simp [Number.rank]

lemma rank_of_toInt? (h : n.toInt? = some k) : n.rank = some (((k : ℚ) : WithTop ℚ) : WithBot (WithTop ℚ)) := by
  cases n with
  | nan => cases h
  | infinity negative => cases h
  | zero =>
    cases h
    rfl
  | finite negative d =>
    by_cases hle : (d.digits.length : ℤ) ≤ d.point
    · have hvalue : d.value = ((digitsValue d.digits * 10 ^ (d.point - d.digits.length).toNat : ℤ) : ℚ) := by
        obtain ⟨e, he⟩ := Int.le.dest hle
        have hexponent : d.point - d.digits.length = (e : ℤ) := by omega
        rw [Decimal.value, hexponent, Int.toNat_natCast, zpow_natCast]
        push_cast
        rfl
      simp only [Number.toInt?, if_pos hle] at h
      obtain rfl := Option.some.inj h
      rw [Number.rank, hvalue]
      cases negative with
      | false => rfl
      | true =>
        rw [if_pos rfl, if_pos rfl]
        exact_mod_cast rfl
    · simp only [Number.toInt?, if_neg hle] at h
      cases h

lemma rank_ofInt (k : ℤ) : (Number.ofInt k).rank = some (((k : ℚ) : WithTop ℚ) : WithBot (WithTop ℚ)) :=
  rank_of_toInt? (toInt?_ofInt k)

lemma lt_ofInt : (Number.ofInt k).lt (Number.ofInt l) = decide (k < l) := by
  rw [Number.lt, rank_ofInt, rank_ofInt]
  simp only [WithBot.coe_lt_coe, WithTop.coe_lt_coe, Int.cast_lt]

lemma le_ofInt : (Number.ofInt k).le (Number.ofInt l) = decide (k ≤ l) := by
  rw [Number.le, rank_ofInt, rank_ofInt]
  simp only [WithBot.coe_le_coe, WithTop.coe_le_coe, Int.cast_le]

/-- Where neither of them is NaN, a number that is not less is not smaller. -/
lemma not_lt_iff_le (hm : m ≠ .nan) (hn : n ≠ .nan) : m.lt n = false ↔ n.le m = true := by
  obtain ⟨a, ha⟩ := Option.isSome_iff_exists.mp (rank_isSome.mpr hm)
  obtain ⟨b, hb⟩ := Option.isSome_iff_exists.mp (rank_isSome.mpr hn)
  simp [Number.lt, Number.le, ha, hb]

end Order

section Division

/-- The double that a finite number is. -/
def Number.toDouble : Number → ℚ
  | .finite negative d => if negative then -double d.value else double d.value
  | _ => 0

def isNegative : Number → Bool
  | .infinity negative => negative
  | .finite negative _ => negative
  | _ => false

def isInfinite : Number → Bool
  | .infinity _ => true
  | _ => false

/-- `Math.floor(m / n)`. Of an integer from `2 ^ 53` on all the digits are kept. -/
def floorQuotient (m n : Number) : Number :=
  if m.IsFinite ∧ n.IsFinite ∧ n ≠ .zero then
    let q := double (m.toDouble / n.toDouble)
    if 2 ^ 1024 ≤ |q| then .infinity (decide (q < 0)) else .ofInt ⌊q⌋
  else if m = .nan ∨ n = .nan ∨ isInfinite m = true ∧ isInfinite n = true ∨ m = .zero ∧ n = .zero then .nan
  else if isInfinite n then .zero
  else .infinity (xor (isNegative m) (isNegative n))

lemma floorQuotient_finite {m n : Number} (hm : m.IsFinite) (hn : n.IsFinite) (hzero : n ≠ .zero)
    (h : |double (m.toDouble / n.toDouble)| < 2 ^ 1024) :
    floorQuotient m n = .ofInt ⌊double (m.toDouble / n.toDouble)⌋ := by
  rw [floorQuotient, if_pos ⟨hm, hn, hzero⟩]
  dsimp only
  rw [if_neg (not_le.mpr h)]

end Division

end VivimOmega.Library.Json

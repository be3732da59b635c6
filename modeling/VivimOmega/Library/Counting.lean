import Mathlib

/-! Lists of integers that count up from one. -/

namespace VivimOmega.Library

def Counting (l : List ℤ) : Prop := l = (List.range' 1 l.length).map Nat.cast

namespace Counting

variable {l : List ℤ}

lemma nil : Counting [] := rfl

lemma concat (h : Counting l) : Counting (l ++ [(l.length : ℤ) + 1]) := by
  unfold Counting
  rw [List.length_append, List.length_singleton, List.range'_concat, List.map_append, ← h]
  have hlast : ((1 + 1 * l.length : ℕ) : ℤ) = l.length + 1 := by omega
  rw [List.map_singleton, hlast]

lemma mem_iff (h : Counting l) {k : ℤ} : k ∈ l ↔ 1 ≤ k ∧ k ≤ l.length := by
  rw [h, List.mem_map, List.length_map, List.length_range']
  constructor
  · rintro ⟨n, hn, rfl⟩
    have hh := List.mem_range'_1.mp hn
    omega
  · rintro ⟨hpos, hle⟩
    exact ⟨k.toNat, List.mem_range'_1.mpr (by omega), by omega⟩

lemma max? (h : Counting l) : l.max?.getD 0 = l.length := by
  cases l with
  | nil => rfl
  | cons a rest =>
    have hmax : (a :: rest).max? = some ((a :: rest).length : ℤ) := by
      rw [List.max?_eq_some_iff]
      refine ⟨h.mem_iff.mpr ⟨?_, le_refl _⟩, fun b hb => (h.mem_iff.mp hb).2⟩
      rw [List.length_cons]
      omega
    rw [hmax, Option.getD_some]

lemma pairwise (h : Counting l) : l.Pairwise (· < ·) := by
  rw [h, List.pairwise_map]
  exact List.Pairwise.imp (by simp) List.pairwise_lt_range'

end Counting

end VivimOmega.Library

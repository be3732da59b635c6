import Mathlib

/-! Capabilities that are narrowed as they are handed on: a longer path, and more clauses that a use of it has
to meet. -/

namespace VivimOmega.Library

structure Capability (α : Type) where
  path : List α
  clauses : List α

namespace Capability

variable {α : Type}

/-- At or below the path, under all of the clauses. -/
instance : Preorder (Capability α) where
  le a b := b.path <+: a.path ∧ b.clauses ⊆ a.clauses
  le_refl a := ⟨List.prefix_rfl, List.Subset.refl _⟩
  le_trans _ _ _ hab hbc := ⟨hbc.1.trans hab.1, fun _ h => hab.2 (hbc.2 h)⟩

lemma le_iff {a b : Capability α} : a ≤ b ↔ b.path <+: a.path ∧ b.clauses ⊆ a.clauses := Iff.rfl

end Capability

section Lineage

variable {ι σ : Type} {Parent : ι → ι → Prop}

/-- Where each step of a lineage narrows, the whole of it does. -/
lemma within_ancestors (within : σ → σ → Prop) (scope : ι → σ) (htrans : ∀ a b c, within a b → within b c → within a c)
    (hparent : ∀ i j, Parent i j → within (scope i) (scope j)) {i j : ι} (h : Relation.TransGen Parent i j) :
    within (scope i) (scope j) := by
  induction h with
  | single h => exact hparent _ _ h
  | tail _ h ih => exact htrans _ _ _ ih (hparent _ _ h)

end Lineage

end VivimOmega.Library

import Mathlib

/-! Edits of a list into another, and the least number of them. -/

namespace VivimOmega.Library

/-- A list is turned into another by so many insertions, deletions and replacements. -/
inductive Edits {α : Type} : List α → List α → ℕ → Prop
  | nil : Edits [] [] 0
  | delete {xs ys n} (x : α) : Edits xs ys n → Edits (x :: xs) ys (n + 1)
  | insert {xs ys n} (y : α) : Edits xs ys n → Edits xs (y :: ys) (n + 1)
  | keep {xs ys n} (x : α) : Edits xs ys n → Edits (x :: xs) (x :: ys) n
  | replace {xs ys n} (x y : α) : Edits xs ys n → Edits (x :: xs) (y :: ys) (n + 1)

section Scripts

variable {α : Type} {xs ys xs' ys' : List α} {x y : α} {m n : ℕ}

namespace Edits

lemma deletions (xs : List α) : Edits xs [] xs.length := by
  induction xs with
  | nil => exact .nil
  | cons x xs ih => exact ih.delete x

lemma insertions (ys : List α) : Edits [] ys ys.length := by
  induction ys with
  | nil => exact .nil
  | cons y ys ih => exact ih.insert y

lemma append (h : Edits xs ys m) (h' : Edits xs' ys' n) : Edits (xs ++ xs') (ys ++ ys') (m + n) := by
  induction h with
  | nil => simpa using h'
  | delete x _ ih =>
    rw [Nat.add_right_comm]
    exact ih.delete x
  | insert y _ ih =>
    rw [Nat.add_right_comm]
    exact ih.insert y
  | keep x _ ih => exact ih.keep x
  | replace x y _ ih =>
    rw [Nat.add_right_comm]
    exact ih.replace x y

lemma reverse (h : Edits xs ys n) : Edits xs.reverse ys.reverse n := by
  induction h with
  | nil => exact .nil
  | delete x _ ih => simpa using ih.append (nil.delete x)
  | insert y _ ih => simpa using ih.append (nil.insert y)
  | keep x _ ih => simpa using ih.append (nil.keep x)
  | replace x y _ ih => simpa using ih.append (nil.replace x y)

/-- What the last elements of the two lists have become. -/
lemma concat_cases (h : Edits (xs ++ [x]) (ys ++ [y]) n) :
    (∃ k, n = k + 1 ∧ (Edits xs (ys ++ [y]) k ∨ Edits (xs ++ [x]) ys k ∨ Edits xs ys k)) ∨ x = y ∧ Edits xs ys n := by
  have hreversed := h.reverse
  simp only [List.reverse_append, List.reverse_singleton, List.singleton_append] at hreversed
  cases hreversed with
  | delete _ hrest =>
    refine Or.inl ⟨_, rfl, Or.inl ?_⟩
    simpa using hrest.reverse
  | insert _ hrest =>
    refine Or.inl ⟨_, rfl, Or.inr (Or.inl ?_)⟩
    simpa using hrest.reverse
  | keep _ hrest =>
    refine Or.inr ⟨rfl, ?_⟩
    simpa using hrest.reverse
  | replace _ _ hrest =>
    refine Or.inl ⟨_, rfl, Or.inr (Or.inr ?_)⟩
    simpa using hrest.reverse

lemma length_le (h : Edits xs ys n) : xs.length ≤ ys.length + n ∧ ys.length ≤ xs.length + n := by
  induction h with
  | nil => simp
  | _ => simp_all; omega

/-- The edits of the first part of a list make a first part of the result. -/
lemma split (h : Edits (xs ++ xs') ys n) :
    ∃ k front, front <+: ys ∧ Edits xs front k ∧ k ≤ n := by
  generalize hzs : xs ++ xs' = zs at h
  induction h generalizing xs with
  | nil =>
    obtain ⟨rfl, rfl⟩ := List.append_eq_nil_iff.mp hzs
    exact ⟨0, [], List.prefix_rfl, .nil, le_refl 0⟩
  | insert y _ ih =>
    obtain ⟨k, front, hfront, hedits, hk⟩ := ih hzs
    exact ⟨k + 1, y :: front, (List.prefix_cons_inj y).mpr hfront, hedits.insert y, by omega⟩
  | delete x _ ih =>
    cases xs with
    | nil => exact ⟨0, [], List.nil_prefix, .nil, Nat.zero_le _⟩
    | cons x' xs =>
      obtain ⟨rfl, hrest⟩ := List.cons.inj hzs
      obtain ⟨k, front, hfront, hedits, hk⟩ := ih hrest
      exact ⟨k + 1, front, hfront, hedits.delete x', by omega⟩
  | keep x _ ih =>
    cases xs with
    | nil => exact ⟨0, [], List.nil_prefix, .nil, Nat.zero_le _⟩
    | cons x' xs =>
      obtain ⟨rfl, hrest⟩ := List.cons.inj hzs
      obtain ⟨k, front, hfront, hedits, hk⟩ := ih hrest
      exact ⟨k, x' :: front, (List.prefix_cons_inj x').mpr hfront, hedits.keep x', hk⟩
  | replace x y _ ih =>
    cases xs with
    | nil => exact ⟨0, [], List.nil_prefix, .nil, Nat.zero_le _⟩
    | cons x' xs =>
      obtain ⟨rfl, hrest⟩ := List.cons.inj hzs
      obtain ⟨k, front, hfront, hedits, hk⟩ := ih hrest
      exact ⟨k + 1, y :: front, (List.prefix_cons_inj y).mpr hfront, hedits.replace x' y, by omega⟩

end Edits

end Scripts

section Distance

variable {α : Type} {xs ys xs' : List α} {x y : α} {n : ℕ}

/-- The least number of edits. -/
noncomputable def distance (xs ys : List α) : ℕ := sInf {n | Edits xs ys n}

lemma edits_distance (xs ys : List α) : Edits xs ys (distance xs ys) := by
  have hsome := (Edits.deletions xs).append (Edits.insertions ys)
  rw [List.append_nil, List.nil_append] at hsome
  exact Nat.sInf_mem ⟨_, hsome⟩

lemma distance_le (h : Edits xs ys n) : distance xs ys ≤ n := Nat.sInf_le h

lemma distance_nil_left (ys : List α) : distance [] ys = ys.length := by
  apply le_antisymm
  · exact distance_le (Edits.insertions ys)
  · simpa using (edits_distance [] ys).length_le.2

lemma distance_nil_right (xs : List α) : distance xs [] = xs.length := by
  apply le_antisymm
  · exact distance_le (Edits.deletions xs)
  · simpa using (edits_distance xs []).length_le.1

lemma distance_concat [DecidableEq α] (xs ys : List α) (x y : α) : distance (xs ++ [x]) (ys ++ [y]) =
    min (min (distance xs (ys ++ [y]) + 1) (distance (xs ++ [x]) ys + 1)) (distance xs ys + if x = y then 0 else 1) := by
  apply le_antisymm
  · refine le_min (le_min ?_ ?_) ?_
    · simpa using distance_le ((edits_distance xs (ys ++ [y])).append (Edits.nil.delete x))
    · simpa using distance_le ((edits_distance (xs ++ [x]) ys).append (Edits.nil.insert y))
    · split_ifs with hxy
      · subst hxy
        exact distance_le ((edits_distance xs ys).append (Edits.nil.keep x))
      · exact distance_le ((edits_distance xs ys).append (Edits.nil.replace x y))
  · obtain ⟨k, hk, hdelete | hinsert | hreplace⟩ | ⟨rfl, hkeep⟩ := (edits_distance (xs ++ [x]) (ys ++ [y])).concat_cases
    · have hle := distance_le hdelete
      omega
    · have hle := distance_le hinsert
      omega
    · have hle := distance_le hreplace
      split_ifs <;> omega
    · have hle := distance_le hkeep
      simp only [if_true]
      omega

lemma length_diff_le (xs ys : List α) : xs.length - ys.length + (ys.length - xs.length) ≤ distance xs ys := by
  have hlengths := (edits_distance xs ys).length_le
  omega

/-- Some first part of the second list is no farther from a first part of the first one than the lists are. -/
lemma exists_distance_le (xs xs' ys : List α) : ∃ front, front <+: ys ∧ distance xs front ≤ distance (xs ++ xs') ys := by
  obtain ⟨k, front, hfront, hedits, hk⟩ := (edits_distance (xs ++ xs') ys).split
  exact ⟨front, hfront, (distance_le hedits).trans hk⟩

end Distance

end VivimOmega.Library

import Mathlib

/-! Hash chains: every row stores the hash of its fields with the hash of the row before. -/

namespace VivimOmega.Library

/-- How rows of a chain are read: the fields hashed, the hash stored, the previous hash stored. -/
structure HashChain (R F D : Type) where
  fields : R → F
  stored : R → D
  back : R → D
  hash : F → D → D
  ext : ∀ r s, fields r = fields s → stored r = stored s → back r = back s → r = s

namespace HashChain

variable {R F D : Type} (C : HashChain R F D)

/-- The rows form a chain from the hash given. -/
def Chained : D → List R → Prop
  | _, [] => True
  | d, r :: rest => C.back r = d ∧ C.stored r = C.hash (C.fields r) d ∧ Chained (C.stored r) rest

/-- The hash stored last. -/
def head (d : D) (rows : List R) : D := rows.foldl (fun _ r => C.stored r) d

lemma head_append (d : D) (rows : List R) (r : R) : C.head d (rows ++ [r]) = C.stored r := by
  rw [head, List.foldl_append]
  rfl

lemma chained_append (d : D) (rows : List R) (r : R) :
    C.Chained d (rows ++ [r]) ↔ C.Chained d rows ∧ C.back r = C.head d rows ∧
      C.stored r = C.hash (C.fields r) (C.head d rows) := by
  induction rows generalizing d with
  | nil => simp [Chained, head]
  | cons s rest ih =>
    rw [List.cons_append, Chained, Chained, ih, and_assoc, and_assoc]
    rfl

/-- Chains of one length with one head have the same rows, where the hash tells inputs apart. -/
lemma eq_of_head {d : D} {xs ys : List R} (hlen : xs.length = ys.length) (hxs : C.Chained d xs)
    (hys : C.Chained d ys) (hhead : C.head d xs = C.head d ys)
    (hinj : ∀ r ∈ xs, ∀ s ∈ ys, C.hash (C.fields r) (C.back r) = C.hash (C.fields s) (C.back s) →
      C.fields r = C.fields s ∧ C.back r = C.back s) : xs = ys := by
  induction xs using List.reverseRecOn generalizing ys with
  | nil => exact (List.eq_nil_of_length_eq_zero hlen.symm).symm
  | append_singleton xs r ih =>
    cases ys using List.reverseRecOn with
    | nil => simp at hlen
    | append_singleton ys s =>
      rw [chained_append] at hxs hys
      obtain ⟨hxs, hrback, hrhash⟩ := hxs
      obtain ⟨hys, hsback, hshash⟩ := hys
      rw [head_append, head_append] at hhead
      have hr : r ∈ xs ++ [r] := List.mem_append_right _ (List.mem_singleton_self r)
      have hs : s ∈ ys ++ [s] := List.mem_append_right _ (List.mem_singleton_self s)
      obtain ⟨hfields, hback⟩ := hinj r hr s hs (by
        rw [hrback, hsback, ← hrhash, ← hshash, hhead])
      have hrest : xs = ys := by
        refine ih ?_ hxs hys ?_ fun r hr s hs =>
          hinj r (List.mem_append_left _ hr) s (List.mem_append_left _ hs)
        · simpa using hlen
        · rw [← hrback, ← hsback, hback]
      rw [hrest, C.ext r s hfields hhead hback]

lemma chained_prefix {d : D} {xs ys : List R} (h : C.Chained d (xs ++ ys)) : C.Chained d xs := by
  induction xs generalizing d with
  | nil => trivial
  | cons r rest ih => exact ⟨h.1, h.2.1, ih h.2.2⟩

/-- Two prefixes of a chain that end in one hash are one, where the stored hash tells the hashes before apart and
is never the hash that the chain starts from. -/
lemma eq_of_same_head {d : D} {xs ys zs : List R} (h : C.Chained d xs) (hys : ys <+: xs) (hzs : zs <+: xs)
    (hhead : C.head d ys = C.head d zs)
    (hback : ∀ r ∈ xs, ∀ s ∈ xs, C.stored r = C.stored s → C.back r = C.back s)
    (hfresh : ∀ r ∈ xs, C.stored r ≠ d) : ys = zs := by
  induction ys using List.reverseRecOn generalizing zs with
  | nil =>
    cases zs using List.reverseRecOn with
    | nil => rfl
    | append_singleton zs s =>
      rw [head_append] at hhead
      exact absurd hhead.symm (hfresh s (hzs.mem (by simp)))
  | append_singleton ys r ih =>
    cases zs using List.reverseRecOn with
    | nil =>
      rw [head_append] at hhead
      exact absurd hhead (hfresh r (hys.mem (by simp)))
    | append_singleton zs s =>
      rw [head_append, head_append] at hhead
      have hlink := hback r (hys.mem (by simp)) s (hzs.mem (by simp)) hhead
      obtain ⟨ysrest, hyseq⟩ := hys
      obtain ⟨zsrest, hzseq⟩ := hzs
      obtain ⟨_, hrback, _⟩ := (C.chained_append d ys r).mp (C.chained_prefix (hyseq ▸ h))
      obtain ⟨_, hsback, _⟩ := (C.chained_append d zs s).mp (C.chained_prefix (hzseq ▸ h))
      have hbefore : ys = zs := by
        apply ih
        · exact ⟨[r] ++ ysrest, by rw [← hyseq, List.append_assoc]⟩
        · exact ⟨[s] ++ zsrest, by rw [← hzseq, List.append_assoc]⟩
        · exact hrback.symm.trans (hlink.trans hsback)
      rw [hbefore, ← hzseq, List.append_assoc, List.append_assoc, List.append_cancel_left_eq] at hyseq
      rw [hbefore, (List.cons_eq_cons.mp hyseq).1]

/-- A chain made of rows of another one is a prefix of it. -/
lemma prefix_of_mem {d : D} {xs ys : List R} (hxs : C.Chained d xs) (hys : C.Chained d ys)
    (hsub : ∀ y ∈ ys, y ∈ xs) (hback : ∀ r ∈ xs, ∀ s ∈ xs, C.stored r = C.stored s → C.back r = C.back s)
    (hfresh : ∀ r ∈ xs, C.stored r ≠ d) : ys <+: xs := by
  induction ys using List.reverseRecOn with
  | nil => exact List.nil_prefix
  | append_singleton ys y ih =>
    obtain ⟨hchain, hyback, _⟩ := (C.chained_append d ys y).mp hys
    have hbefore : ys <+: xs := ih hchain fun z hz => hsub z (List.mem_append_left _ hz)
    obtain ⟨pre, post, hsplit⟩ := List.append_of_mem (hsub y (by simp))
    have hwhole : xs = pre ++ [y] ++ post := by simpa using hsplit
    obtain ⟨_, hpreback, _⟩ := (C.chained_append d pre y).mp (C.chained_prefix (hwhole ▸ hxs))
    have hsame : ys = pre := by
      apply C.eq_of_same_head hxs hbefore ⟨y :: post, hsplit.symm⟩ _ hback hfresh
      exact hyback.symm.trans hpreback
    rw [hsame]
    exact ⟨post, hwhole.symm⟩

end HashChain

end VivimOmega.Library

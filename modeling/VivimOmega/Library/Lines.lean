import Mathlib

/-! Texts cut at a separator, whole or as they arrive in parts. -/

namespace VivimOmega.Library

section Lines

variable {α : Type} [DecidableEq α] {sep : α} {line text : List α}

/-- The parts that a separator has ended, and the start of the next one. -/
def cutAt (sep : α) (buf : List α) : List (List α) × List α :=
  ((buf.splitOn sep).dropLast, (buf.splitOn sep).getLast?.getD [])

lemma cutAt_line (h : sep ∉ line) (rest : List α) :
    cutAt sep (line ++ sep :: rest) = (line :: (cutAt sep rest).1, (cutAt sep rest).2) := by
  have hne := List.splitOn_ne_nil sep rest
  rw [cutAt, List.splitOn_append_cons_self_of_not_mem h, List.dropLast_cons_of_ne_nil hne,
    List.getLast?_cons_of_ne_nil hne]
  rfl

/-- Two texts that are cut at the same first separator are equal on both sides of it. -/
lemma line_cancel {line' rest rest' : List α} (h : sep ∉ line) (h' : sep ∉ line') (heq : line ++ sep :: rest = line' ++ sep :: rest') :
    line = line' ∧ rest = rest' := by
  have hcut := congrArg (cutAt sep) heq
  rw [cutAt_line h, cutAt_line h'] at hcut
  obtain ⟨rfl, -⟩ := List.cons.inj (Prod.mk.inj hcut).1
  exact ⟨rfl, List.cons.inj (List.append_cancel_left heq) |>.2⟩

/-- The last separator splits as the first one does. -/
lemma line_cancel_last {front front' rest rest' : List α} (h : sep ∉ rest) (h' : sep ∉ rest')
    (heq : front ++ sep :: rest = front' ++ sep :: rest') : front = front' ∧ rest = rest' := by
  have hreversed := congrArg List.reverse heq
  simp only [List.reverse_append, List.reverse_cons, List.append_assoc, List.singleton_append] at hreversed
  obtain ⟨hrest, hfront⟩ := line_cancel (by simpa using h) (by simpa using h') hreversed
  exact ⟨List.reverse_injective hfront, List.reverse_injective hrest⟩

lemma cutAt_open (h : sep ∉ text) : cutAt sep text = ([], text) := by
  rw [cutAt, List.splitOn_eq_singleton h]
  rfl

/-- By the first of the separators in a text. -/
lemma cut_induction {P : List α → Prop} (sep : α) (hopen : ∀ text, sep ∉ text → P text)
    (hline : ∀ line rest, sep ∉ line → P rest → P (line ++ sep :: rest)) (text : List α) : P text := by
  induction h : text.length using Nat.strongRecOn generalizing text with
  | _ n ih =>
    by_cases hmem : sep ∈ text
    · obtain ⟨line, rest, rfl, hfree⟩ := List.eq_append_cons_of_mem hmem
      exact hline line rest hfree (ih rest.length (by simp at h; omega) rest rfl)
    · exact hopen text hmem

lemma splitOn_free (text : List α) : ∀ line ∈ text.splitOn sep, sep ∉ line := by
  induction text using cut_induction sep with
  | hopen text h =>
    rw [List.splitOn_eq_singleton h, List.forall_mem_singleton]
    exact h
  | hline line rest h ih =>
    rw [List.splitOn_append_cons_self_of_not_mem h, List.forall_mem_cons]
    exact ⟨h, ih⟩

lemma cutAt_append (sep : α) (a b : List α) : cutAt sep (a ++ b) =
    ((cutAt sep a).1 ++ (cutAt sep ((cutAt sep a).2 ++ b)).1, (cutAt sep ((cutAt sep a).2 ++ b)).2) := by
  induction a using cut_induction sep with
  | hopen text h =>
    rw [cutAt_open h]
    rfl
  | hline line rest h ih =>
    rw [List.append_assoc, List.cons_append, cutAt_line h, cutAt_line h, ih]
    rfl

lemma cutAt_snd (text : List α) : sep ∉ (cutAt sep text).2 := by
  induction text using cut_induction sep with
  | hopen text h =>
    rw [cutAt_open h]
    exact h
  | hline line rest h ih =>
    rw [cutAt_line h]
    exact ih

lemma cutAt_fst (text : List α) : ∀ line ∈ (cutAt sep text).1, sep ∉ line := by
  induction text using cut_induction sep with
  | hopen text h =>
    rw [cutAt_open h]
    simp
  | hline line rest h ih =>
    rw [cutAt_line h]
    exact List.forall_mem_cons.mpr ⟨h, ih⟩

/-- The parts, each ended, and what follows them. -/
def rejoin (sep : α) (lines : List (List α)) (left : List α) : List α := lines.flatMap (fun line => line ++ [sep]) ++ left

lemma rejoin_cutAt (text : List α) : rejoin sep (cutAt sep text).1 (cutAt sep text).2 = text := by
  induction text using cut_induction sep with
  | hopen text h =>
    rw [cutAt_open h]
    rfl
  | hline line rest h ih =>
    rw [cutAt_line h, rejoin, List.flatMap_cons, List.append_assoc, List.append_assoc]
    exact congrArg (line ++ sep :: ·) ih

lemma cutAt_rejoin {lines : List (List α)} {left : List α} (h : ∀ line ∈ lines, sep ∉ line) (hleft : sep ∉ left) :
    cutAt sep (rejoin sep lines left) = (lines, left) := by
  induction lines with
  | nil => exact cutAt_open hleft
  | cons line rest ih =>
    obtain ⟨hline, hrest⟩ := List.forall_mem_cons.mp h
    have hcons : rejoin sep (line :: rest) left = line ++ sep :: rejoin sep rest left := by simp [rejoin]
    rw [hcons, cutAt_line hline, ih hrest]

end Lines

section Arrivals

variable {α : Type} [DecidableEq α]

/-- The parts that each arrival ends. -/
def arrivals (sep : α) : List α → List (List α) → List (List (List α))
  | _, [] => []
  | buffer, chunk :: rest => (cutAt sep (buffer ++ chunk)).1 :: arrivals sep (cutAt sep (buffer ++ chunk)).2 rest

lemma flatten_arrivals {sep : α} {buffer : List α} (h : sep ∉ buffer) (chunks : List (List α)) :
    (arrivals sep buffer chunks).flatten = (cutAt sep (buffer ++ chunks.flatten)).1 := by
  induction chunks generalizing buffer with
  | nil => simp [arrivals, cutAt_open h]
  | cons chunk rest ih =>
    have hcut := cutAt_append sep (buffer ++ chunk) rest.flatten
    rw [arrivals, List.flatten_cons, List.flatten_cons, ← List.append_assoc, hcut, ih (cutAt_snd _)]

end Arrivals

end VivimOmega.Library

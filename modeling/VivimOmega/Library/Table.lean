import Mathlib

/-! Tables with a primary key: rows in insertion order, no key twice. -/

namespace VivimOmega.Library

@[ext]
structure Table (K R : Type) (key : R → K) where
  rows : List R
  keyed : (rows.map key).Nodup

namespace Table

variable {K R : Type} {key : R → K}

def empty : Table K R key := ⟨[], List.nodup_nil⟩

@[simp] lemma rows_empty : (empty : Table K R key).rows = [] := rfl

def delete (t : Table K R key) (p : R → Bool) : Table K R key :=
  ⟨t.rows.filter fun r => !p r, t.keyed.sublist (List.Sublist.map key List.filter_sublist)⟩

@[simp] lemma rows_delete (t : Table K R key) (p : R → Bool) :
    (t.delete p).rows = t.rows.filter fun r => !p r := rfl

lemma eq_of_key {t : Table K R key} {r s : R} (hr : r ∈ t.rows) (hs : s ∈ t.rows)
    (h : key r = key s) : r = s :=
  List.inj_on_of_nodup_map t.keyed hr hs h

variable [DecidableEq K]

/-- Refused when a row with the key is there. -/
def insert? (t : Table K R key) (r : R) : Option (Table K R key) :=
  if h : key r ∈ t.rows.map key then none
  else some ⟨t.rows ++ [r], by
    rw [List.map_append, List.map_singleton]
    exact List.nodup_append.mpr ⟨t.keyed, List.nodup_singleton _, by
      intro k hk k' hk' he
      rw [List.mem_singleton.mp hk'] at he
      exact h (he ▸ hk)⟩⟩

lemma insert?_eq_some {t u : Table K R key} {r : R} :
    t.insert? r = some u ↔ key r ∉ t.rows.map key ∧ u.rows = t.rows ++ [r] := by
  unfold insert?
  split_ifs with h
  · simp [h]
  · constructor
    · intro he
      cases he
      exact ⟨h, rfl⟩
    · rintro ⟨_, hu⟩
      exact congrArg some (Table.ext hu.symm)

def find? (t : Table K R key) (k : K) : Option R := t.rows.find? fun r => key r = k

lemma find?_eq_some {t : Table K R key} {k : K} {r : R} :
    t.find? k = some r ↔ r ∈ t.rows ∧ key r = k := by
  constructor
  · intro h
    exact ⟨List.mem_of_find?_eq_some h, by simpa using List.find?_some h⟩
  · rintro ⟨hr, rfl⟩
    cases hfind : t.find? (key r) with
    | none =>
      have hh := List.find?_eq_none.mp hfind r hr
      simp at hh
    | some s =>
      have hs := List.mem_of_find?_eq_some hfind
      have hkey : key s = key r := by simpa using List.find?_some hfind
      rw [eq_of_key hs hr hkey]

lemma find?_eq_none {t : Table K R key} {k : K} :
    t.find? k = none ↔ ∀ r ∈ t.rows, key r ≠ k := by
  simp [find?]

/-- Inserts rows one by one, in their order. -/
def insertAll? (t : Table K R key) : List R → Option (Table K R key)
  | [] => some t
  | r :: rest => do
    let u ← t.insert? r
    u.insertAll? rest

lemma insertAll?_eq_some {t u : Table K R key} {rs : List R} :
    t.insertAll? rs = some u ↔ ((t.rows ++ rs).map key).Nodup ∧ u.rows = t.rows ++ rs := by
  induction rs generalizing t with
  | nil =>
    rw [insertAll?, Option.some.injEq, List.append_nil]
    constructor
    · rintro rfl
      exact ⟨t.keyed, rfl⟩
    · rintro ⟨_, hu⟩
      exact Table.ext hu.symm
  | cons r rest ih =>
    rw [insertAll?]
    cases hins : t.insert? r with
    | none =>
      have hmem : key r ∈ t.rows.map key := by
        by_contra h
        unfold insert? at hins
        rw [dif_neg h] at hins
        cases hins
      simp only [Option.bind_eq_bind, Option.bind_none, reduceCtorEq, false_iff]
      rintro ⟨hnodup, _⟩
      rw [List.map_append, List.map_cons] at hnodup
      exact (List.nodup_append.mp hnodup).2.2 _ hmem _ List.mem_cons_self rfl
    | some v =>
      obtain ⟨_, hv⟩ := insert?_eq_some.mp hins
      simp only [Option.bind_eq_bind, Option.bind_some]
      rw [ih, hv, List.append_assoc, List.singleton_append]

end Table

end VivimOmega.Library

import Mathlib

/-! Finite maps that remember the order in which their keys were first inserted.
Overwriting a key keeps its place, deleting it frees the place. -/

namespace VivimOmega.Library

structure OrderedMap (K V : Type) where
  entries : List (K × V)
  nodup : (entries.map Prod.fst).Nodup

namespace OrderedMap

variable {K V W : Type}

def empty : OrderedMap K V := ⟨[], List.nodup_nil⟩

def keys (m : OrderedMap K V) : List K := m.entries.map Prod.fst

def values (m : OrderedMap K V) : List V := m.entries.map Prod.snd

/-- The sum of `f` over the values. -/
def total (f : V → ℕ) (m : OrderedMap K V) : ℕ := (m.values.map f).sum

@[simp] lemma total_empty (f : V → ℕ) : (empty : OrderedMap K V).total f = 0 := rfl

variable [DecidableEq K]

def get? (m : OrderedMap K V) (k : K) : Option V :=
  (m.entries.find? (fun e => e.1 = k)).map Prod.snd

def has (m : OrderedMap K V) (k : K) : Bool := (m.get? k).isSome

def overwrite (k : K) (v : V) (entries : List (K × V)) : List (K × V) :=
  entries.map (fun e => if e.1 = k then (k, v) else e)

lemma overwrite_keys (k : K) (v : V) (entries : List (K × V)) :
    (overwrite k v entries).map Prod.fst = entries.map Prod.fst := by
  simp only [overwrite, List.map_map]
  apply List.map_congr_left
  intro e _
  by_cases h : e.1 = k <;> simp [h]

lemma get?_isSome (m : OrderedMap K V) (k : K) :
    (m.get? k).isSome = true ↔ k ∈ m.entries.map Prod.fst := by
  simp [get?, List.find?_isSome]

def set (m : OrderedMap K V) (k : K) (v : V) : OrderedMap K V :=
  if h : m.has k = true then ⟨overwrite k v m.entries, (overwrite_keys k v m.entries).symm ▸ m.nodup⟩
  else ⟨m.entries ++ [(k, v)], by
    have hk : k ∉ m.entries.map Prod.fst := fun hm => h ((get?_isSome m k).mpr hm)
    rw [List.map_append, List.nodup_append]
    refine ⟨m.nodup, List.nodup_singleton _, ?_⟩
    rintro a ha b hb rfl
    simp only [List.map_cons, List.map_nil, List.mem_singleton] at hb
    exact hk (hb ▸ ha)⟩

def delete (m : OrderedMap K V) (k : K) : OrderedMap K V :=
  ⟨m.entries.filter (fun e => e.1 ≠ k), m.nodup.sublist (List.filter_sublist.map Prod.fst)⟩

def mapValues (f : V → W) (m : OrderedMap K V) : OrderedMap K W :=
  ⟨m.entries.map (fun e => (e.1, f e.2)), by simpa [List.map_map, Function.comp_def] using m.nodup⟩

def ofEntries (entries : List (K × V)) : OrderedMap K V :=
  entries.foldl (fun m e => m.set e.1 e.2) empty

@[simp] lemma get?_empty (k : K) : (empty : OrderedMap K V).get? k = none := rfl

lemma find?_overwrite (k k' : K) (v : V) (entries : List (K × V)) :
    ((overwrite k v entries).find? (fun e => e.1 = k')).map Prod.snd =
      if k' = k then (entries.find? (fun e => e.1 = k)).map (fun _ => v)
      else (entries.find? (fun e => e.1 = k')).map Prod.snd := by
  induction entries with
  | nil => simp [overwrite]
  | cons e rest ih =>
    have hrest : overwrite k v (e :: rest) =
        (if e.1 = k then (k, v) else e) :: overwrite k v rest := rfl
    rw [hrest, List.find?_cons, List.find?_cons, List.find?_cons]
    by_cases he : e.1 = k
    · by_cases hk : k' = k
      · simp [he, hk]
      · have hne : ¬ k = k' := fun h => hk h.symm
        simpa [he, hne, hk] using ih
    · by_cases hk : k' = k
      · subst hk
        simpa [he] using ih
      · by_cases hek : e.1 = k'
        · simp [hek, hk]
        · simpa [hek, hk, he] using ih

lemma get?_set (m : OrderedMap K V) (k k' : K) (v : V) :
    (m.set k v).get? k' = if k' = k then some v else m.get? k' := by
  unfold set
  split
  · rename_i h
    simp only [get?, find?_overwrite]
    obtain ⟨w, hw⟩ := Option.isSome_iff_exists.mp h
    by_cases hk : k' = k
    · simp only [hk, if_true]
      simp only [get?, Option.map_eq_some_iff] at hw
      obtain ⟨e, he, _⟩ := hw
      rw [he]
      rfl
    · simp [hk]
  · rename_i h
    have hnone : m.entries.find? (fun e => e.1 = k) = none := by
      simpa only [has, get?, Option.isSome_map, Bool.not_eq_true, Option.isSome_eq_false_iff,
        Option.isNone_iff_eq_none] using h
    simp only [get?, List.find?_append]
    by_cases hk : k' = k
    · subst hk
      simp [hnone]
    · have hne : ¬ k = k' := fun h => hk h.symm
      simp [hk, hne]

@[simp] lemma get?_set_self (m : OrderedMap K V) (k : K) (v : V) :
    (m.set k v).get? k = some v := by simp [get?_set]

lemma get?_set_of_ne (m : OrderedMap K V) {k k' : K} (v : V) (h : k' ≠ k) :
    (m.set k v).get? k' = m.get? k' := by simp [get?_set, h]

lemma get?_delete (m : OrderedMap K V) (k k' : K) :
    (m.delete k).get? k' = if k' = k then none else m.get? k' := by
  simp only [get?, delete, List.find?_filter]
  by_cases hk : k' = k
  · subst hk
    simp only [if_true, Option.map_eq_none_iff, List.find?_eq_none]
    intro e _
    by_cases he : e.1 = k' <;> simp [he]
  · simp only [hk, if_false]
    congr 2
    funext e
    by_cases he : e.1 = k'
    · simp [he, hk]
    · simp [he]

@[simp] lemma get?_delete_self (m : OrderedMap K V) (k : K) : (m.delete k).get? k = none := by
  simp [get?_delete]

lemma get?_delete_of_ne (m : OrderedMap K V) {k k' : K} (h : k' ≠ k) :
    (m.delete k).get? k' = m.get? k' := by simp [get?_delete, h]

@[simp] lemma get?_mapValues (f : V → W) (m : OrderedMap K V) (k : K) :
    (m.mapValues f).get? k = (m.get? k).map f := by
  simp only [get?, mapValues, List.find?_map, Function.comp_def, Option.map_map]

lemma has_iff (m : OrderedMap K V) (k : K) : m.has k = true ↔ ∃ v, m.get? k = some v :=
  Option.isSome_iff_exists

lemma has_eq_false (m : OrderedMap K V) (k : K) : m.has k = false ↔ m.get? k = none := by
  simp [has]

lemma has_of_get? {m : OrderedMap K V} {k : K} {v : V} (h : m.get? k = some v) :
    m.has k = true := (has_iff m k).mpr ⟨v, h⟩

@[simp] lemma has_set (m : OrderedMap K V) (k k' : K) (v : V) :
    (m.set k v).has k' = (decide (k' = k) || m.has k') := by
  by_cases h : k' = k <;> simp [has, get?_set, h]

@[simp] lemma has_delete (m : OrderedMap K V) (k k' : K) :
    (m.delete k).has k' = (decide (k' ≠ k) && m.has k') := by
  by_cases h : k' = k <;> simp [has, get?_delete, h]

lemma get?_of_mem {m : OrderedMap K V} {k : K} {v : V} (h : (k, v) ∈ m.entries) :
    m.get? k = some v := by
  obtain ⟨entries, nodup⟩ := m
  simp only [get?]
  simp only at h nodup
  induction entries with
  | nil => simp at h
  | cons e rest ih =>
    simp only [List.map_cons, List.nodup_cons] at nodup
    rcases List.mem_cons.mp h with rfl | hr
    · simp
    · have hne : e.1 ≠ k := by
        rintro rfl
        exact nodup.1 (List.mem_map.mpr ⟨_, hr, rfl⟩)
      simpa [hne] using ih nodup.2 hr

lemma mem_of_get? {m : OrderedMap K V} {k : K} {v : V} (h : m.get? k = some v) :
    (k, v) ∈ m.entries := by
  simp only [get?, Option.map_eq_some_iff] at h
  obtain ⟨e, he, rfl⟩ := h
  have hk : e.1 = k := by simpa using List.find?_some he
  exact hk ▸ List.mem_of_find?_eq_some he

lemma exists_of_total_pos {m : OrderedMap K V} {f : V → ℕ} (h : 0 < m.total f) :
    ∃ k v, m.get? k = some v ∧ 0 < f v := by
  by_contra hnone
  push Not at hnone
  have hzero : ∀ x ∈ m.values.map f, x = 0 := by
    intro x hx
    obtain ⟨v, hv, rfl⟩ := List.mem_map.mp hx
    obtain ⟨⟨k, w⟩, he, rfl⟩ := List.mem_map.mp hv
    have hle := hnone k w (get?_of_mem he)
    dsimp only
    omega
  rw [total, List.sum_eq_zero hzero] at h
  omega

lemma sum_overwrite (f : V → ℕ) {k : K} {v w : V} {entries : List (K × V)}
    (hn : (entries.map Prod.fst).Nodup) (h : (k, w) ∈ entries) :
    (((overwrite k v entries).map Prod.snd).map f).sum + f w =
      ((entries.map Prod.snd).map f).sum + f v := by
  induction entries with
  | nil => simp at h
  | cons e rest ih =>
    simp only [List.map_cons, List.nodup_cons] at hn
    have hcons : overwrite k v (e :: rest) = (if e.1 = k then (k, v) else e) :: overwrite k v rest :=
      rfl
    rw [hcons]
    rcases List.mem_cons.mp h with rfl | hr
    · have hsame : overwrite k v rest = rest := by
        conv_rhs => rw [← List.map_id rest]
        apply List.map_congr_left
        intro e he
        have hne : e.1 ≠ k := fun hk => hn.1 (List.mem_map.mpr ⟨e, he, hk⟩)
        simp [hne]
      simp only [hsame, if_true, List.map_cons, List.sum_cons]
      omega
    · have hne : e.1 ≠ k := by
        rintro rfl
        exact hn.1 (List.mem_map.mpr ⟨_, hr, rfl⟩)
      have hih := ih hn.2 hr
      simp only [hne, if_false, List.map_cons, List.sum_cons]
      omega

lemma total_set_fresh (f : V → ℕ) {m : OrderedMap K V} {k : K} (v : V) (h : m.get? k = none) :
    (m.set k v).total f = m.total f + f v := by
  have hh : ¬ m.has k = true := by simp [has, h]
  simp [total, values, set, hh]

lemma total_set (f : V → ℕ) {m : OrderedMap K V} {k : K} {w : V} (v : V)
    (h : m.get? k = some w) : (m.set k v).total f + f w = m.total f + f v := by
  have hh : m.has k = true := has_of_get? h
  simp only [total, values, set, hh, dif_pos]
  exact sum_overwrite f m.nodup (mem_of_get? h)

lemma total_delete (f : V → ℕ) {m : OrderedMap K V} {k : K} {w : V} (h : m.get? k = some w) :
    (m.delete k).total f + f w = m.total f := by
  obtain ⟨entries, nodup⟩ := m
  have hm := mem_of_get? h
  simp only [total, values, delete] at *
  clear h
  induction entries with
  | nil => simp at hm
  | cons e rest ih =>
    simp only [List.map_cons, List.nodup_cons] at nodup
    rcases List.mem_cons.mp hm with rfl | hr
    · have hsame : rest.filter (fun e => decide (e.1 ≠ k)) = rest := by
        apply List.filter_eq_self.mpr
        intro e he
        have hne : e.1 ≠ k := fun hk => nodup.1 (List.mem_map.mpr ⟨e, he, hk⟩)
        simpa using hne
      rw [List.filter_cons_of_neg (by simp), hsame, List.map_cons, List.map_cons, List.sum_cons]
      exact Nat.add_comm _ _
    · have hne : e.1 ≠ k := by
        rintro rfl
        exact nodup.1 (List.mem_map.mpr ⟨_, hr, rfl⟩)
      have hih := ih nodup.2 hr
      rw [List.filter_cons_of_pos (by simpa using hne)]
      simp only [List.map_cons, List.sum_cons]
      omega

lemma set_same {m : OrderedMap K V} {k : K} {v : V} (h : m.get? k = some v) : m.set k v = m := by
  obtain ⟨entries, nodup⟩ := m
  have hh : (mk entries nodup).has k = true := has_of_get? h
  simp only [set, hh, dif_pos, mk.injEq]
  conv_rhs => rw [← List.map_id entries]
  apply List.map_congr_left
  intro e he
  by_cases hk : e.1 = k
  · subst hk
    have hv := get?_of_mem (m := ⟨entries, nodup⟩) (k := e.1) (v := e.2) he
    rw [h] at hv
    simp [Option.some.inj hv]
  · simp [hk]

lemma delete_fresh {m : OrderedMap K V} {k : K} (h : m.get? k = none) : m.delete k = m := by
  obtain ⟨entries, nodup⟩ := m
  simp only [delete, mk.injEq]
  apply List.filter_eq_self.mpr
  intro e he
  have hne : e.1 ≠ k := by
    rintro rfl
    have := get?_of_mem (m := ⟨entries, nodup⟩) (k := e.1) (v := e.2) he
    rw [h] at this
    simp at this
  simpa using hne

lemma le_total {m : OrderedMap K V} {k : K} {v : V} (f : V → ℕ) (h : m.get? k = some v) :
    f v ≤ m.total f := by
  have hd := total_delete f h
  omega

lemma ofEntries_concat (entries : List (K × V)) (e : K × V) :
    ofEntries (entries ++ [e]) = (ofEntries entries).set e.1 e.2 := by
  rw [ofEntries, List.foldl_append]
  rfl

lemma mem_of_ofEntries {entries : List (K × V)} {k : K} {v : V} (h : (ofEntries entries).get? k = some v) :
    (k, v) ∈ entries := by
  induction entries using List.reverseRecOn with
  | nil => cases h
  | append_singleton entries e ih =>
    rw [ofEntries_concat, get?_set] at h
    split_ifs at h with hk
    · obtain rfl := Option.some.inj h
      simp [hk]
    · exact List.mem_append_left _ (ih h)

lemma ofEntries_has {entries : List (K × V)} {k : K} (h : k ∈ entries.map Prod.fst) :
    ∃ v, (ofEntries entries).get? k = some v := by
  induction entries using List.reverseRecOn with
  | nil => simp at h
  | append_singleton entries e ih =>
    rw [ofEntries_concat, get?_set]
    split_ifs with hk
    · exact ⟨e.2, rfl⟩
    · apply ih
      simpa [hk] using h

/-- Entries with a key each are kept as they come. -/
lemma ofEntries_entries {entries : List (K × V)} (h : (entries.map Prod.fst).Nodup) :
    (ofEntries entries).entries = entries := by
  induction entries using List.reverseRecOn with
  | nil => rfl
  | append_singleton entries e ih =>
    rw [List.map_append, List.nodup_append] at h
    obtain ⟨hrest, _, hfresh⟩ := h
    have hnone : (ofEntries entries).has e.1 = false := by
      refine (has_eq_false _ _).mpr (Option.eq_none_iff_forall_ne_some.mpr fun v hv => ?_)
      have hmem : e.1 ∈ entries.map Prod.fst := List.mem_map.mpr ⟨_, mem_of_ofEntries hv, rfl⟩
      exact hfresh e.1 hmem e.1 (by simp) rfl
    rw [ofEntries_concat, set, dif_neg (by simp [hnone])]
    exact congrArg (· ++ [e]) (ih hrest)

lemma mem_values {m : OrderedMap K V} {v : V} : v ∈ m.values ↔ ∃ k, m.get? k = some v := by
  rw [values, List.mem_map]
  constructor
  · rintro ⟨e, he, rfl⟩
    exact ⟨e.1, get?_of_mem he⟩
  · rintro ⟨k, hk⟩
    exact ⟨_, mem_of_get? hk, rfl⟩

end OrderedMap

end VivimOmega.Library

import VivimOmega.Library.EditDistance
import VivimOmega.Nlcl.Ground

/-! The bounded edit distance against the least number of edits. -/

namespace VivimOmega.Nlcl

open Library Library.Json

/-! A cap is any number, which the callers pass as a natural one. -/
namespace AnyCap

def levRows (cap : WithTop ℚ) (b : JsString) : ℕ → List ℕ → JsString → WithTop ℚ
  | _, prev, [] => (prev.getLastD 0 : ℕ)
  | i, prev, c :: rest =>
    let cur := levRow c i b prev
    if cap < (cur.foldl min i : ℕ) then cap + 1 else levRows cap b (i + 1) cur rest

def lev (a b : JsString) (cap : WithTop ℚ) : WithTop ℚ :=
  if cap < (a.length - b.length + (b.length - a.length) : ℕ) then cap + 1
  else if a = [] then b.length
  else if b = [] then a.length
  else levRows cap b 1 (List.range (b.length + 1)) a

end AnyCap

section Rows

variable {cap : WithTop ℚ} {xs b : JsString} {c : UInt16}

/-- The distances of a text from the first parts of another. -/
noncomputable def distanceRow (xs b : JsString) : List ℕ := b.inits.map (distance xs)

lemma inits_eq (b : JsString) : b.inits = [] :: b.inits.tail := by
  cases b <;> rfl

lemma levCells_eq (c : UInt16) (xs ys b : JsString) :
    levCells c (distance xs ys) (distance (xs ++ [c]) ys) (b.inits.tail.map fun zs => distance xs (ys ++ zs)) b =
      b.inits.tail.map fun zs => distance (xs ++ [c]) (ys ++ zs) := by
  induction b generalizing ys with
  | nil => rfl
  | cons v b ih =>
    have htail : (v :: b).inits.tail = [v] :: b.inits.tail.map (v :: ·) := by
      rw [List.inits_cons, List.tail_cons, inits_eq b, List.map_cons, List.tail_cons]
    have hshift : ∀ ws : JsString, (b.inits.tail.map (v :: ·)).map (fun zs => distance ws (ys ++ zs)) =
        b.inits.tail.map fun zs => distance ws (ys ++ [v] ++ zs) := by
      intro ws
      rw [List.map_map]
      refine List.map_congr_left fun zs _ => ?_
      simp
    rw [htail, List.map_cons, List.map_cons, hshift, hshift, levCells, ← distance_concat, ih]

lemma levRow_eq (c : UInt16) (xs b : JsString) :
    levRow c (xs.length + 1) b (distanceRow xs b) = distanceRow (xs ++ [c]) b := by
  have hcells := levCells_eq c xs [] b
  simp only [List.nil_append, distance_nil_right, List.length_append, List.length_singleton] at hcells
  rw [levRow, distanceRow, distanceRow, inits_eq b, List.map_cons, List.headD_cons, List.tail_cons, List.map_cons,
    distance_nil_right, distance_nil_right, List.length_append, List.length_singleton]
  exact congrArg _ hcells

lemma distanceRow_nil (b : JsString) : distanceRow [] b = List.range (b.length + 1) := by
  apply List.ext_getElem
  · simp [distanceRow]
  · intro i hi hrange
    have hb : i ≤ b.length := by simpa [distanceRow, Nat.lt_succ_iff] using hi
    simp [distanceRow, distance_nil_left, List.getElem_inits, hb]

lemma getLastD_distanceRow (xs b : JsString) : (distanceRow xs b).getLastD 0 = distance xs b := by
  have hlast : b.inits.getLast? = some b := by
    rw [List.getLast?_eq_getElem?, List.length_inits, Nat.add_sub_cancel,
      List.getElem?_eq_getElem (by simp), List.getElem_inits, List.take_length]
  rw [distanceRow, List.getLastD_eq_getLast?, List.getLast?_map, hlast]
  rfl

lemma foldl_min_le (i : ℕ) (ds : List ℕ) : ds.foldl min i ≤ i ∧ ∀ d ∈ ds, ds.foldl min i ≤ d := by
  induction ds generalizing i with
  | nil => simp
  | cons d' ds ih =>
    obtain ⟨hfirst, hrest⟩ := ih (min i d')
    rw [List.foldl_cons, List.forall_mem_cons]
    exact ⟨hfirst.trans (min_le_left _ _), hfirst.trans (min_le_right _ _), hrest⟩

lemma far_lt (h : cap < ⊤) : cap < cap + 1 := by
  lift cap to ℚ using h.ne
  exact_mod_cast lt_add_one cap

/-- A row with no cell within the cap is followed by none that has one. -/
lemma levRows_exact (cap : WithTop ℚ) (b rest xs : JsString) :
    ((distance (xs ++ rest) b : ℕ) ≤ cap → AnyCap.levRows cap b (xs.length + 1) (distanceRow xs b) rest =
      (distance (xs ++ rest) b : ℕ)) ∧
    (cap < (distance (xs ++ rest) b : ℕ) → cap < AnyCap.levRows cap b (xs.length + 1) (distanceRow xs b) rest) := by
  induction rest generalizing xs with
  | nil =>
    rw [List.append_nil, AnyCap.levRows, getLastD_distanceRow]
    exact ⟨fun _ => rfl, id⟩
  | cons c rest ih =>
    have hnext := ih (xs ++ [c])
    rw [List.append_assoc, List.singleton_append, List.length_append, List.length_singleton] at hnext
    rw [AnyCap.levRows, levRow_eq]
    by_cases hfar : cap < ((distanceRow (xs ++ [c]) b).foldl min (xs.length + 1) : ℕ)
    · obtain ⟨front, hfront, hle⟩ := exists_distance_le (xs ++ [c]) rest b
      have hcell : distance (xs ++ [c]) front ∈ distanceRow (xs ++ [c]) b :=
        List.mem_map.mpr ⟨front, List.mem_inits _ _ |>.mpr hfront, rfl⟩
      have hmin := ((foldl_min_le (xs.length + 1) _).2 _ hcell).trans hle
      rw [List.append_assoc, List.singleton_append] at hmin
      have hbeyond : cap < (distance (xs ++ c :: rest) b : ℕ) := hfar.trans_le (by exact_mod_cast hmin)
      simp only [if_pos hfar]
      exact ⟨fun hnear => absurd hnear (not_le.mpr hbeyond), fun _ => far_lt (hfar.trans_le le_top)⟩
    · simp only [if_neg hfar]
      exact hnext

end Rows

/-- Below the cap the result is the least number of edits, and beyond it more than the cap. -/
theorem lev_exact (a b : JsString) (cap : WithTop ℚ) :
    ((distance a b : ℕ) ≤ cap → AnyCap.lev a b cap = (distance a b : ℕ)) ∧
    (cap < (distance a b : ℕ) → cap < AnyCap.lev a b cap) := by
  unfold AnyCap.lev
  by_cases hlength : cap < (a.length - b.length + (b.length - a.length) : ℕ)
  · have hbeyond : cap < (distance a b : ℕ) := hlength.trans_le (by exact_mod_cast length_diff_le a b)
    rw [if_pos hlength]
    exact ⟨fun hnear => absurd hnear (not_le.mpr hbeyond), fun _ => far_lt (hlength.trans_le le_top)⟩
  rw [if_neg hlength]
  by_cases ha : a = []
  · rw [if_pos ha, ha, distance_nil_left]
    exact ⟨fun _ => rfl, id⟩
  rw [if_neg ha]
  by_cases hb : b = []
  · rw [if_pos hb, hb, distance_nil_right]
    exact ⟨fun _ => rfl, id⟩
  rw [if_neg hb, ← distanceRow_nil]
  exact levRows_exact cap b a []

/-- A natural cap gives what the callers of the distance use. -/
lemma lev_natCast (a b : JsString) (cap : ℕ) : AnyCap.lev a b cap = (lev a b cap : ℕ) := by
  have hrows : ∀ (rest : JsString) (i : ℕ) (prev : List ℕ),
      AnyCap.levRows cap b i prev rest = (levRows cap b i prev rest : ℕ) := by
    intro rest
    induction rest with
    | nil =>
      intro i prev
      rfl
    | cons c rest ih =>
      intro i prev
      rw [AnyCap.levRows, levRows]
      simp only [Nat.cast_lt, ih]
      split_ifs <;> simp
  unfold AnyCap.lev lev
  simp only [Nat.cast_lt, hrows]
  split_ifs <;> simp

end VivimOmega.Nlcl

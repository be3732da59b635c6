import VivimOmega.Library.Json.Quoting

/-! The deterministic text utilities of the command language, over the engine's Unicode tables. -/

namespace VivimOmega.Nlcl

open Library.Json

/-- What the engine knows of Unicode. -/
structure Unicode where
  toLowerCase : JsString → JsString
  normalizeNfd : JsString → JsString
  toUpperCase : UInt16 → JsString

def asciiLower (u : UInt16) : UInt16 := if 65 ≤ u && u ≤ 90 then u + 32 else u

def asciiUpper (u : UInt16) : UInt16 := if 97 ≤ u && u ≤ 122 then u - 32 else u

/-- The tables on texts of ASCII. -/
def ascii : Unicode := ⟨fun s => s.map asciiLower, fun s => s, fun u => [asciiUpper u]⟩

section Fold

def isSpace (u : UInt16) : Bool :=
  (9 ≤ u && u ≤ 13) || u = 32 || u = 0xA0 || u = 0x1680 || (0x2000 ≤ u && u ≤ 0x200A) || u = 0x2028 || u = 0x2029 ||
    u = 0x202F || u = 0x205F || u = 0x3000 || u = 0xFEFF

def isCombining (u : UInt16) : Bool := 0x0300 ≤ u && u ≤ 0x036F

/-- Every run of blanks becomes one space. -/
def collapse : JsString → JsString
  | [] => []
  | u :: rest =>
    if isSpace u then if rest.head?.any isSpace then collapse rest else 32 :: collapse rest else u :: collapse rest

def trim (s : JsString) : JsString := (s.dropWhile isSpace).rdropWhile isSpace

def fold (U : Unicode) (s : JsString) : JsString :=
  trim (collapse ((U.normalizeNfd (U.toLowerCase s)).filter fun u => !isCombining u))

end Fold

section Slug

def dash : UInt16 := 45

def isAlnum (u : UInt16) : Bool := (48 ≤ u && u ≤ 57) || (97 ≤ u && u ≤ 122)

def slugStep (out : JsString) (u : UInt16) : JsString :=
  if isAlnum u then out ++ [u]
  else if out ≠ [] ∧ out.getLast? ≠ some dash then out ++ [dash]
  else out

def slug (U : Unicode) (s : JsString) : JsString :=
  let out := ((fold U s).foldl slugStep []).rdropWhile (· = dash)
  if out = [] then ofText "x" else out

/-- The maximal runs of letters and digits. -/
def runs (s : JsString) : List JsString := (s.splitOnP fun u => !isAlnum u).filter (· ≠ [])

lemma splitOnP_cases (s : JsString) : ∃ h t, s.splitOnP (fun u => !isAlnum u) = h :: t ∧
    ∀ u, (u :: s).splitOnP (fun u => !isAlnum u) = if isAlnum u then (u :: h) :: t else [] :: h :: t := by
  cases hs : s.splitOnP (fun u => !isAlnum u) with
  | nil => exact absurd hs (List.splitOnP_ne_nil _ s)
  | cons h t =>
    refine ⟨h, t, rfl, fun u => ?_⟩
    rw [List.splitOnP_cons_eq_if_modifyHead, hs]
    cases isAlnum u <;> rfl

lemma slugStep_alnum {u : UInt16} (h : isAlnum u = true) (out : JsString) : slugStep out u = out ++ [u] := if_pos h

lemma slugStep_other {u : UInt16} (h : isAlnum u = false) (out : JsString) : slugStep out u =
    if out ≠ [] ∧ out.getLast? ≠ some dash then out ++ [dash] else out :=
  if_neg (Bool.eq_false_iff.mp h)

lemma rdropWhile_alnum {out : JsString} (h : out.getLast?.any isAlnum = true) : out.rdropWhile (· = dash) = out := by
  apply List.rdropWhile_eq_self_iff.mpr
  intro hne hdash
  rw [List.getLast?_eq_some_getLast hne, Option.any_some, of_decide_eq_true hdash] at h
  exact absurd h (by decide)

/-- After a letter or a digit each further run is set off with one dash. -/
lemma foldl_slugStep (s : JsString) : ∀ h t, s.splitOnP (fun u => !isAlnum u) = h :: t →
    ∀ out : JsString, out.getLast?.any isAlnum = true →
      (s.foldl slugStep out).rdropWhile (· = dash) = [dash].intercalate ((out ++ h) :: t.filter (· ≠ [])) ∧
      (s.foldl slugStep (out ++ [dash])).rdropWhile (· = dash) =
        [dash].intercalate (out :: (h :: t).filter (· ≠ [])) := by
  induction s with
  | nil =>
    intro h t hs out hout
    obtain ⟨rfl, rfl⟩ := List.cons.inj (List.splitOnP_nil.symm.trans hs)
    rw [List.append_nil]
    have hsingle : [dash].intercalate [out] = out := List.intercalate_singleton
    have hself := (rdropWhile_alnum hout).trans hsingle.symm
    exact ⟨hself, (List.rdropWhile_concat_pos _ _ _ (by decide)).trans hself⟩
  | cons u s ih =>
    intro h t hs out hout
    obtain ⟨h', t', hs', hcons⟩ := splitOnP_cases s
    rw [hcons u] at hs
    have hlast : ∀ l : JsString, isAlnum u = true → (l ++ [u]).getLast?.any isAlnum = true := by
      intro l hu
      rw [List.getLast?_concat]
      exact hu
    by_cases hu : isAlnum u = true
    · rw [if_pos hu] at hs
      obtain ⟨rfl, rfl⟩ := List.cons.inj hs
      rw [List.foldl_cons, List.foldl_cons, slugStep_alnum hu, slugStep_alnum hu,
        (ih h' t' hs' _ (hlast out hu)).1, (ih h' t' hs' _ (hlast (out ++ [dash]) hu)).1]
      refine ⟨by rw [List.append_assoc, List.singleton_append], ?_⟩
      rw [List.filter_cons_of_pos (by simp), List.intercalate_cons_cons]
      cases hrest : t'.filter (· ≠ []) with
      | nil => simp
      | cons r rest => simp [List.intercalate_cons_cons]
    · rw [if_neg hu] at hs
      obtain ⟨rfl, rfl⟩ := List.cons.inj hs
      have hne : out ≠ [] := by
        rintro rfl
        cases hout
      have hdash : out.getLast? ≠ some dash := by
        intro hd
        rw [hd] at hout
        exact absurd hout (by decide)
      rw [List.foldl_cons, List.foldl_cons, slugStep_other (Bool.eq_false_iff.mpr hu),
        slugStep_other (Bool.eq_false_iff.mpr hu), if_pos ⟨hne, hdash⟩,
        if_neg (fun hx => hx.2 List.getLast?_concat)]
      obtain ⟨_, hdashed⟩ := ih h' t' hs' out hout
      rw [hdashed, List.append_nil]
      exact ⟨rfl, rfl⟩

/-- A slug is the runs of the folded text with a dash between each two, or an x where there is none. -/
lemma slug_eq (U : Unicode) (s : JsString) : slug U s =
    if runs (fold U s) = [] then ofText "x" else [dash].intercalate (runs (fold U s)) := by
  suffices hh : ∀ s : JsString, (s.foldl slugStep []).rdropWhile (· = dash) = [dash].intercalate (runs s) by
    rw [slug, hh]
    cases hruns : runs (fold U s) with
    | nil => rfl
    | cons r rest =>
      have hr : r ≠ [] := by
        have hmem : r ∈ runs (fold U s) := by
          rw [hruns]
          exact List.mem_cons_self
        exact of_decide_eq_true (List.mem_filter.mp hmem).2
      have hne : [dash].intercalate (r :: rest) ≠ [] := by
        cases rest with
        | nil => rwa [List.intercalate_singleton]
        | cons r' rest => simp [List.intercalate_cons_cons]
      rw [if_neg hne, if_neg (List.cons_ne_nil r rest)]
  intro s
  induction s with
  | nil => rfl
  | cons u s ih =>
    obtain ⟨h, t, hs, hcons⟩ := splitOnP_cases s
    by_cases hu : isAlnum u = true
    · have hruns : runs (u :: s) = (u :: h) :: t.filter (· ≠ []) := by
        rw [runs, hcons u, if_pos hu]
        rfl
      rw [List.foldl_cons, slugStep_alnum hu, List.nil_append, (foldl_slugStep s h t hs [u] hu).1, hruns]
      rfl
    · have hruns : runs (u :: s) = runs s := by
        rw [runs, hcons u, if_neg hu, runs, hs]
        rfl
      rw [List.foldl_cons, slugStep_other (Bool.eq_false_iff.mpr hu), if_neg (fun hx => hx.1 rfl), ih, hruns]

lemma mem_runs {s : JsString} {r : JsString} (h : r ∈ runs s) : r ≠ [] ∧ ∀ u ∈ r, isAlnum u = true := by
  obtain ⟨hmem, hne⟩ := List.mem_filter.mp h
  refine ⟨of_decide_eq_true hne, ?_⟩
  clear h hne
  induction s generalizing r with
  | nil =>
    rw [List.splitOnP_nil, List.mem_singleton] at hmem
    rw [hmem]
    exact fun u hu => absurd hu List.not_mem_nil
  | cons u s ih =>
    obtain ⟨h, t, hs, hcons⟩ := splitOnP_cases s
    rw [hs] at ih
    rw [hcons u] at hmem
    by_cases hu : isAlnum u = true
    · rw [if_pos hu] at hmem
      obtain rfl | hrest := List.mem_cons.mp hmem
      · intro v hv
        obtain rfl | hold := List.mem_cons.mp hv
        · exact hu
        · exact ih List.mem_cons_self v hold
      · exact ih (List.mem_cons_of_mem h hrest)
    · rw [if_neg hu] at hmem
      obtain rfl | hrest := List.mem_cons.mp hmem
      · exact fun v hv => absurd hv List.not_mem_nil
      · exact ih hrest

/-- The parts of a slug. -/
def slugRuns (U : Unicode) (s : JsString) : List JsString :=
  if runs (fold U s) = [] then [ofText "x"] else runs (fold U s)

lemma slug_eq_slugRuns (U : Unicode) (s : JsString) : slug U s = [dash].intercalate (slugRuns U s) := by
  rw [slug_eq, slugRuns]
  split_ifs
  · exact List.intercalate_singleton.symm
  · rfl

lemma slugRuns_ne_nil (U : Unicode) (s : JsString) : slugRuns U s ≠ [] := by
  rw [slugRuns]
  split_ifs with h
  · exact List.cons_ne_nil _ _
  · exact h

lemma slugRuns_clean (U : Unicode) (s : JsString) : ∀ r ∈ slugRuns U s, dash ∉ r := by
  have hclean : ∀ r : JsString, (∀ u ∈ r, isAlnum u = true) → dash ∉ r :=
    fun r hr hdash => absurd (hr dash hdash) (by decide)
  rw [slugRuns]
  split_ifs
  · intro r hr
    refine hclean r fun u hu => ?_
    rw [List.mem_singleton.mp hr, show ofText "x" = [120] from rfl] at hu
    rw [List.mem_singleton.mp hu]
    rfl
  · exact fun r hr => hclean r (mem_runs hr).2

/-- Two slugs are the same where the runs are, and a text without any has the slug of an x. -/
lemma slug_inj_iff (U : Unicode) (s t : JsString) : slug U s = slug U t ↔
    slugRuns U s = slugRuns U t := by
  rw [slug_eq_slugRuns, slug_eq_slugRuns]
  refine ⟨fun h => ?_, fun h => congrArg _ h⟩
  have hs := List.splitOn_intercalate dash (slugRuns_clean U s) (slugRuns_ne_nil U s)
  have ht := List.splitOn_intercalate dash (slugRuns_clean U t) (slugRuns_ne_nil U t)
  rw [← hs, h, ht]

end Slug

section Label

def isSeparator (u : UInt16) : Bool := u = 46 || u = 95 || u = 45

def capitalized (U : Unicode) : JsString → JsString
  | [] => []
  | u :: rest => U.toUpperCase u ++ rest

def segments (s : JsString) : List JsString := s.splitOnP isSeparator

def prettifyLocalPart (U : Unicode) (localPart : JsString) : JsString :=
  [32].intercalate (((segments localPart).filter (· ≠ [])).map (capitalized U))

end Label

end VivimOmega.Nlcl

import VivimOmega.Law.Tokens

/-! The scopes as an order: its canonical representatives, and what a chain of handles keeps. -/

namespace VivimOmega.Law

open Library Library.Json

section Units

lemma isSegment_word {s : JsString} (h : isSegment s = true) : s ≠ [] ∧ ∀ u ∈ s, isWordUnit u = true := by
  obtain ⟨hne, hall⟩ := Bool.and_eq_true_iff.mp h
  exact ⟨of_decide_eq_true hne, List.all_eq_true.mp hall⟩

lemma word_ne {u : UInt16} (h : isWordUnit u = true) : u ≠ colon ∧ u ≠ dot := by
  constructor
  all_goals
    rintro rfl
    exact absurd h (by decide)

lemma colon_notMem_constraint {c : JsString} (h : isConstraint c = true) : c ≠ [] ∧ colon ∉ c := by
  unfold isConstraint at h
  split at h
  · next key value hsplit =>
    obtain ⟨hkey, hvalue⟩ := Bool.and_eq_true_iff.mp h
    have hc : c = key ++ equalsSign :: value := by
      have hjoined : List.intercalate [equalsSign] (c.splitOn equalsSign) = c := List.intercalate_splitOn equalsSign
      rw [← hjoined, hsplit, List.intercalate_cons_cons, List.intercalate_singleton]
      simp
    refine ⟨by simp [hc], fun hmem => ?_⟩
    rw [hc] at hmem
    obtain hk | hv := List.mem_append.mp hmem
    · exact (word_ne ((isSegment_word hkey).2 _ hk)).1 rfl
    · obtain heq | hv := List.mem_cons.mp hv
      · exact absurd heq (by decide)
      · have hunits := List.all_eq_true.mp (Bool.and_eq_true_iff.mp hvalue).2 _ hv
        simp at hunits
  · cases h

lemma length_intercalate (x : UInt16) (s : JsString) (ls : List JsString) :
    ([x].intercalate (s :: ls)).length = s.length + (ls.map fun l => l.length + 1).sum := by
  induction ls generalizing s with
  | nil => simp
  | cons l ls ih =>
    rw [List.intercalate_cons_cons, List.length_append, List.length_append, ih]
    simp
    omega

lemma mem_intercalate {x u : UInt16} {ls : List JsString} (h : u ∈ [x].intercalate ls) :
    u = x ∨ ∃ l ∈ ls, u ∈ l := by
  induction ls with
  | nil => simp at h
  | cons l ls ih =>
    cases ls with
    | nil => exact .inr ⟨l, List.mem_cons_self, by simpa using h⟩
    | cons m ls =>
      rw [List.intercalate_cons_cons, List.mem_append, List.mem_append, List.mem_singleton] at h
      obtain (hl | rfl) | hrest := h
      · exact .inr ⟨l, List.mem_cons_self, hl⟩
      · exact .inl rfl
      · exact (ih hrest).imp id fun ⟨k, hk, hu⟩ => ⟨k, List.mem_cons_of_mem l hk, hu⟩

end Units

section Canonical

variable {a b c : JsString} {pa pb : ParsedScope}

lemma mem_normalize {ops : List JsString} {op : JsString} : op ∈ normalize ops ↔ op ∈ ops := by
  rw [normalize, (List.perm_insertionSort keyLe _).mem_iff, List.mem_dedup]

lemma normalize_length (ops : List JsString) :
    ((normalize ops).map fun l => l.length + 1).sum ≤ (ops.map fun l => l.length + 1).sum := by
  have hperm : ((normalize ops).map fun l => l.length + 1).Perm (ops.dedup.map fun l => l.length + 1) :=
    (List.perm_insertionSort keyLe _).map _
  rw [hperm.sum_eq]
  exact ((List.dedup_sublist ops).map _).sum_le_sum fun _ _ => Nat.zero_le _

lemma normalize_normalize (ops : List JsString) : normalize (normalize ops) = normalize ops := by
  have hperm : (normalize ops).Perm ops.dedup := List.perm_insertionSort keyLe _
  have hnodup := hperm.nodup_iff.mpr (List.nodup_dedup ops)
  rw [normalize, hnodup.dedup]
  exact (List.pairwise_insertionSort keyLe _).insertionSort_eq

/-- Lists of clauses of one set are one list. -/
lemma normalize_ext {ops others : List JsString} (h : ∀ op, op ∈ normalize ops ↔ op ∈ normalize others) :
    normalize ops = normalize others := by
  have hnodup : ∀ l : List JsString, (normalize l).Nodup := fun l =>
    (List.perm_insertionSort keyLe _).nodup_iff.mpr (List.nodup_dedup l)
  have hperm := (List.perm_ext_iff_of_nodup (hnodup ops) (hnodup others)).mpr h
  have hanti : Std.Antisymm keyLe := ⟨fun _ _ => keyLe_antisymm⟩
  exact hperm.eq_of_pairwise' (List.pairwise_insertionSort keyLe _) (List.pairwise_insertionSort keyLe _)

def rendered (p : ParsedScope) : JsString := [colon].intercalate ([dot].intercalate p.path :: p.clauses)

lemma canonicalScope_eq (h : parseScope a = .ok pa) : canonicalScope a = .ok (rendered pa) := by
  rw [canonicalScope, h]
  rfl

/-- What is read from a scope is read from its canonical text. -/
lemma parseScope_rendered (h : parseScope a = .ok pa) : parseScope (rendered pa) = .ok pa := by
  obtain ⟨hlength, hpath, hclauses, hsegments, hconstraints⟩ := parseScope_ok h
  have hpathNil : pa.path ≠ [] := by
    rw [hpath]
    exact List.splitOn_ne_nil _ _
  have hdots : ([dot].intercalate pa.path).splitOn dot = pa.path := by
    refine List.splitOn_intercalate _ (fun s hs hmem => ?_) hpathNil
    exact (word_ne ((isSegment_word (hsegments s hs)).2 _ hmem)).2 rfl
  have hpathText : colon ∉ [dot].intercalate pa.path := by
    intro hmem
    obtain heq | ⟨s, hs, hu⟩ := mem_intercalate hmem
    · exact absurd heq (by decide)
    · exact (word_ne ((isSegment_word (hsegments s hs)).2 _ hu)).1 rfl
  have hcolons : (rendered pa).splitOn colon = [dot].intercalate pa.path :: pa.clauses := by
    refine List.splitOn_intercalate _ (fun s hs => ?_) (List.cons_ne_nil _ _)
    obtain rfl | hs := List.mem_cons.mp hs
    · exact hpathText
    · exact (colon_notMem_constraint (hconstraints s hs)).2
  have hsize : (rendered pa).length ≤ a.length := by
    have hparts : [dot].intercalate pa.path = (a.splitOn colon).headD [] := by
      rw [hpath, List.intercalate_splitOn]
    have ha : a = [colon].intercalate ((a.splitOn colon).headD [] :: (a.splitOn colon).tail) := by
      cases hsplit : a.splitOn colon with
      | nil => exact absurd hsplit (List.splitOn_ne_nil _ _)
      | cons s rest =>
        rw [List.headD_cons, List.tail_cons, ← hsplit]
        exact (List.intercalate_splitOn colon).symm
    conv_rhs => rw [ha]
    rw [rendered, length_intercalate, length_intercalate, hparts, hclauses]
    exact Nat.add_le_add_left (normalize_length _) _
  have hne : rendered pa ≠ [] := by
    intro hnil
    rw [hnil, List.splitOn_nil] at hcolons
    rw [← (List.cons.inj hcolons).1] at hdots
    have hempty : [] ∈ pa.path := by
      rw [← hdots, List.splitOn_nil]
      exact List.mem_cons_self
    exact (isSegment_word (hsegments [] hempty)).1 rfl
  have hstart : (rendered pa ≠ [] && (rendered pa).length ≤ 512) = true := by
    simp [hne, hsize.trans hlength]
  have hstable : normalize pa.clauses = pa.clauses := by
    rw [hclauses, normalize_normalize]
  have hfind : pa.clauses.find? (fun c => !isConstraint c) = none :=
    List.find?_eq_none.mpr fun c hc => by simp [hconstraints c hc]
  rw [parseScope, hstart, hcolons]
  simp only [List.headD_cons, List.tail_cons, hdots, hstable, hfind, List.all_eq_true.mpr hsegments]
  rfl

lemma isSubset_ok (ha : parseScope a = .ok pa) (hb : parseScope b = .ok pb) :
    ∃ narrower, isSubset a b = .ok narrower ∧ (narrower = true ↔ pa ≤ pb) := by
  refine ⟨pathPrefixOf pa.path pb.path && pb.clauses.all fun c => c ∈ pa.clauses, ?_, ?_⟩
  · rw [isSubset, ha, ok_bind, hb]
    rfl
  · simp [pathPrefixOf, Capability.le_iff, List.subset_def]

lemma isSubset_congr (h : parseScope a = parseScope b) (c : JsString) :
    isSubset a c = isSubset b c ∧ isSubset c a = isSubset c b := by
  constructor <;> simp only [isSubset, h]

/-- Two scopes within each other say the same. -/
lemma parsed_antisymm (ha : parseScope a = .ok pa) (hb : parseScope b = .ok pb) (hab : pa ≤ pb) (hba : pb ≤ pa) :
    pa = pb := by
  obtain ⟨_, _, hclauses, _⟩ := parseScope_ok ha
  obtain ⟨_, _, hclauses', _⟩ := parseScope_ok hb
  obtain ⟨hpath, hsub⟩ := Capability.le_iff.mp hab
  obtain ⟨hpath', hsub'⟩ := Capability.le_iff.mp hba
  have hsame : pa.path = pb.path := (hpath'.eq_of_length_le hpath.length_le)
  have heq : pa.clauses = pb.clauses := by
    rw [hclauses, hclauses'] at hsub hsub' ⊢
    exact normalize_ext fun op => ⟨fun h => hsub' h, fun h => hsub h⟩
  cases pa
  cases pb
  simp only at hsame heq
  rw [hsame, heq]

end Canonical

section Chain

/-- The handles of a chain of attenuations, with the root first. -/
def attenuateAll (root : Cap) : List JsString → Except String (List Cap)
  | [] => return [root]
  | subset :: rest => do
    let child ← attenuate root subset
    let handles ← attenuateAll child rest
    return root :: handles

def Within (a b : JsString) : Prop := isSubset a b = .ok true

lemma attenuate_ok {parent child : Cap} {subset : JsString} (h : attenuate parent subset = .ok child) :
    Within child.scope parent.scope ∧ child.generation = parent.generation := by
  obtain ⟨narrower, hnarrower, h⟩ := bind_eq_ok h
  obtain ⟨_, hrequire, h⟩ := bind_eq_ok h
  cases h
  rw [require_ok hrequire] at hnarrower
  exact ⟨hnarrower, rfl⟩

/-- Each handle of a chain is within all that came before it. -/
lemma attenuateAll_ok {root : Cap} {subsets : List JsString} {handles : List Cap}
    (h : attenuateAll root subsets = .ok handles) : (∀ cap ∈ handles, cap.generation = root.generation) ∧
      (∀ cap ∈ handles.tail, Within cap.scope root.scope) ∧
      handles.Pairwise fun earlier later => Within later.scope earlier.scope := by
  induction subsets generalizing root handles with
  | nil =>
    cases h
    exact ⟨fun cap hcap => by rw [List.mem_singleton.mp hcap], nofun, List.pairwise_singleton _ _⟩
  | cons subset rest ih =>
    obtain ⟨child, hchild, h⟩ := bind_eq_ok h
    obtain ⟨handles', hhandles, h⟩ := bind_eq_ok h
    cases h
    obtain ⟨hwithin, hgeneration⟩ := attenuate_ok hchild
    obtain ⟨hsame, htail, hpairs⟩ := ih hhandles
    have hhead : ∃ later, handles' = child :: later := by
      cases rest with
      | nil =>
        cases hhandles
        exact ⟨[], rfl⟩
      | cons subset' rest =>
        obtain ⟨_, _, hhandles⟩ := bind_eq_ok hhandles
        obtain ⟨later, _, hhandles⟩ := bind_eq_ok hhandles
        cases hhandles
        exact ⟨later, rfl⟩
    obtain ⟨later, rfl⟩ := hhead
    have hroot : ∀ cap ∈ child :: later, Within cap.scope root.scope := by
      intro cap hcap
      obtain rfl | hlater := List.mem_cons.mp hcap
      · exact hwithin
      · exact isSubset_trans (htail cap hlater) hwithin
    refine ⟨fun cap hcap => ?_, hroot, List.pairwise_cons.mpr ⟨hroot, hpairs⟩⟩
    obtain rfl | hcap := List.mem_cons.mp hcap
    · rfl
    · rw [hsame cap hcap, hgeneration]

end Chain

section Algebra

/-- The scopes that are read. -/
abbrev Scope := {s : JsString // ∃ p, parseScope s = .ok p}

/-- The scopes are ordered, each has one canonical text, and a chain of handles only narrows. -/
theorem scope_algebra :
    (∀ a : Scope, Within a.1 a.1) ∧ (∀ a b c : Scope, Within a.1 b.1 → Within b.1 c.1 → Within a.1 c.1) ∧
      (∀ a b : Scope, Within a.1 b.1 ∧ Within b.1 a.1 ↔ canonicalScope a.1 = canonicalScope b.1) ∧
      (∀ a : Scope, ∃ c, canonicalScope a.1 = .ok c ∧ canonicalScope c = .ok c ∧ parseScope c = parseScope a.1 ∧
        ∀ b, isSubset c b = isSubset a.1 b ∧ isSubset b c = isSubset b a.1) ∧
      ∀ (root : Cap) (generation : ℕ) (scope : JsString) (subsets : List JsString) (handles : List Cap),
        mintCap scope generation = .ok root → attenuateAll root subsets = .ok handles →
          (handles.Pairwise fun earlier later => Within later.scope earlier.scope) ∧
            ∀ cap ∈ handles, cap.generation = generation := by
  refine ⟨?_, fun a b c => isSubset_trans, ?_, ?_, ?_⟩
  · rintro ⟨a, pa, ha⟩
    exact isSubset_iff.mpr ⟨pa, pa, ha, ha, le_rfl⟩
  · rintro ⟨a, pa, ha⟩ ⟨b, pb, hb⟩
    constructor
    · rintro ⟨hab, hba⟩
      obtain ⟨pa', pb', ha', hb', hle⟩ := isSubset_iff.mp hab
      obtain ⟨pb'', pa'', hb'', ha'', hle'⟩ := isSubset_iff.mp hba
      cases ha.symm.trans ha'
      cases hb.symm.trans hb'
      cases ha.symm.trans ha''
      cases hb.symm.trans hb''
      rw [canonicalScope_eq ha, canonicalScope_eq hb, parsed_antisymm ha hb hle hle']
    · intro h
      rw [canonicalScope_eq ha, canonicalScope_eq hb] at h
      have hparsed := parseScope_rendered ha
      rw [Except.ok.inj h, parseScope_rendered hb] at hparsed
      cases hparsed
      exact ⟨isSubset_iff.mpr ⟨pa, pa, ha, hb, le_rfl⟩, isSubset_iff.mpr ⟨pa, pa, hb, ha, le_rfl⟩⟩
  · rintro ⟨a, pa, ha⟩
    have hparsed := parseScope_rendered ha
    refine ⟨rendered pa, canonicalScope_eq ha, canonicalScope_eq hparsed, hparsed.trans ha.symm, fun b => ?_⟩
    exact isSubset_congr (hparsed.trans ha.symm) b
  · intro root generation scope subsets handles hroot hchain
    obtain ⟨_, _, hroot⟩ := bind_eq_ok hroot
    cases hroot
    obtain ⟨hsame, _, hpairs⟩ := attenuateAll_ok hchain
    exact ⟨hpairs, hsame⟩

def vaultScope : Cap := ⟨ofText "vault", 1, none⟩

def emailScope : JsString := ofText "vault.append:ns=email"

theorem vault_narrowed : Within emailScope (ofText "vault") ∧
    ∃ c, canonicalScope emailScope = .ok c ∧ parseScope c = parseScope emailScope := by
  have hroot : mintCap (ofText "vault") 1 = .ok vaultScope := by rfl
  have hchain : ∃ child, attenuateAll vaultScope [emailScope] = .ok [vaultScope, child] ∧ child.scope = emailScope :=
    ⟨_, rfl, rfl⟩
  obtain ⟨child, hhandles, hscope⟩ := hchain
  obtain ⟨_, _, _, hcanonical, hall⟩ := scope_algebra
  obtain ⟨hpairs, _⟩ := hall vaultScope 1 _ _ _ hroot hhandles
  obtain ⟨c, hc, _, hparsed, _⟩ := hcanonical ⟨emailScope, _, rfl⟩
  refine ⟨?_, c, hc, hparsed⟩
  rw [← hscope]
  exact (List.pairwise_cons.mp hpairs).1 child List.mem_cons_self

end Algebra

end VivimOmega.Law

import VivimOmega.Host.Content

/-! What a content hash says about the tree it was made from: paths and digests stand in its stream
without separators. -/

namespace VivimOmega.Host

open Library Library.Json Library.Sha256 FileTree

def IsSourceName (n : String) : Prop := IsName n ∧ excluded n = false

instance (n : String) : Decidable (IsSourceName n) := inferInstanceAs (Decidable (_ ∧ _))

def IsSourcePath (p : Path) : Prop := p ≠ [] ∧ ∀ n ∈ p, IsSourceName n

section Splicing

variable {a b d : String} {p q : Path}

/-- One path with the last name of the first, the text and the first name of the second as one name. -/
def splice (d : String) : Path → Path → Path
  | [], q => q
  | [a], [] => [a ++ d]
  | [a], b :: q => (a ++ d ++ b) :: q
  | a :: b :: p, q => a :: splice d (b :: p) q

lemma pathText_cons (a : String) (hp : p ≠ []) : pathText (a :: p) = a ++ "/" ++ pathText p := by
  apply String.toList_injective
  cases p with
  | nil => exact absurd rfl hp
  | cons b p => simp [toList_pathText, List.intercalate_cons_cons]

lemma pathText_singleton (a : String) : pathText [a] = a := by
  apply String.toList_injective
  simp [toList_pathText]

lemma pathText_append (hp : p ≠ []) (hq : q ≠ []) :
    pathText (p ++ q) = pathText p ++ ("/" ++ pathText q) := by
  induction p with
  | nil => exact absurd rfl hp
  | cons a p ih =>
    by_cases hrest : p = []
    · rw [hrest, List.singleton_append, pathText_cons _ hq, pathText_singleton, String.append_assoc]
    · rw [List.cons_append, pathText_cons _ (by simp [hrest]), pathText_cons _ hrest, ih hrest]
      simp only [String.append_assoc]

lemma IsSourcePath.eq (hp : IsSourcePath p) (hq : IsSourcePath q) (h : pathText p = pathText q) :
    p = q :=
  pathText_injective hp.1 hq.1 (fun n hn => (hp.2 n hn).1.2.1) (fun n hn => (hq.2 n hn).1.2.1) h

lemma splice_ne_nil (hp : p ≠ []) : splice d p q ≠ [] := by
  cases p with
  | nil => exact absurd rfl hp
  | cons a p =>
    cases p with
    | nil => cases q <;> simp [splice]
    | cons b p => simp [splice]

lemma pathText_splice (hp : p ≠ []) (hq : q ≠ []) :
    pathText (splice d p q) = pathText p ++ d ++ pathText q := by
  induction p with
  | nil => exact absurd rfl hp
  | cons a p ih =>
    cases p with
    | nil =>
      cases q with
      | nil => exact absurd rfl hq
      | cons b q =>
        rw [splice, pathText_singleton]
        by_cases hrest : q = []
        · rw [hrest, pathText_singleton, pathText_singleton]
        · rw [pathText_cons _ hrest, pathText_cons _ hrest, String.append_assoc, String.append_assoc,
            String.append_assoc, String.append_assoc, String.append_assoc]
    | cons b p =>
      rw [splice, pathText_cons a (splice_ne_nil (by simp)), ih (by simp), pathText_cons a (by simp)]
      simp only [String.append_assoc]

lemma length_of_excluded {n : String} (h : excluded n = true) : n.toList.length ≤ 17 := by
  have hmem : n ∈ excludeContent := by simpa [excluded] using h
  have hall : ∀ n ∈ excludeContent, n.toList.length ≤ 17 := by decide
  exact hall n hmem

/-- A name with a digest in it is no special name. -/
lemma isSourceName_splice (ha : IsSourceName a) (hb : IsSourceName b) (hd : IsDigest d.toList) :
    IsSourceName (a ++ d ++ b) := by
  have hlength : 64 ≤ (a ++ d ++ b).toList.length := by
    simp only [String.toList_append, List.length_append, hd.1]
    omega
  have hslash : '/' ∉ d.toList := fun h => absurd (hd.2 _ h) (by decide)
  refine ⟨⟨?_, ?_, ?_, ?_⟩, ?_⟩
  · intro h
    rw [h] at hlength
    simp at hlength
  · simp only [String.toList_append, List.mem_append]
    rintro ((h | h) | h)
    · exact ha.1.2.1 h
    · exact hslash h
    · exact hb.1.2.1 h
  · intro h
    rw [h] at hlength
    simp at hlength
  · intro h
    rw [h] at hlength
    simp at hlength
  · cases h : excluded (a ++ d ++ b) with
    | false => rfl
    | true =>
      have hshort := length_of_excluded h
      omega

lemma isSourcePath_splice (hp : IsSourcePath p) (hq : IsSourcePath q) (hd : IsDigest d.toList) :
    IsSourcePath (splice d p q) := by
  refine ⟨splice_ne_nil hp.1, ?_⟩
  obtain ⟨hpne, hpnames⟩ := hp
  obtain ⟨hqne, hqnames⟩ := hq
  induction p with
  | nil => exact absurd rfl hpne
  | cons a p ih =>
    obtain ⟨ha, hrest⟩ := List.forall_mem_cons.mp hpnames
    cases p with
    | nil =>
      cases q with
      | nil => exact absurd rfl hqne
      | cons b q =>
        obtain ⟨hb, hqrest⟩ := List.forall_mem_cons.mp hqnames
        exact List.forall_mem_cons.mpr ⟨isSourceName_splice ha hb hd, hqrest⟩
    | cons b p => exact List.forall_mem_cons.mpr ⟨ha, ih (by simp) hrest⟩

/-- What lies on the way to a spliced path is on the way to the first, or begins with its text. -/
lemma prefix_splice {o : Path} (ho : o ≠ []) (hp : p ≠ []) (h : o <+: splice d p q) :
    o <+: p ∨ ∃ text, pathText o = pathText p ++ text := by
  induction p generalizing o with
  | nil => exact absurd rfl hp
  | cons a p ih =>
    cases o with
    | nil => exact absurd rfl ho
    | cons m o =>
      cases p with
      | nil =>
        right
        obtain ⟨tail, hhead⟩ : ∃ tail, m = a ++ tail := by
          cases q with
          | nil => exact ⟨d, (List.cons_prefix_cons.mp h).1⟩
          | cons b q =>
            exact ⟨d ++ b, (List.cons_prefix_cons.mp h).1.trans String.append_assoc⟩
        rw [hhead, pathText_singleton]
        by_cases hrest : o = []
        · rw [hrest, pathText_singleton]
          exact ⟨tail, rfl⟩
        · rw [pathText_cons _ hrest]
          exact ⟨tail ++ ("/" ++ pathText o), by simp only [String.append_assoc]⟩
      | cons b p =>
        obtain ⟨rfl, htail⟩ := List.cons_prefix_cons.mp h
        by_cases hrest : o = []
        · left
          rw [hrest]
          exact List.cons_prefix_cons.mpr ⟨rfl, List.nil_prefix⟩
        · obtain hpre | ⟨text, htext⟩ := ih hrest (by simp) htail
          · exact Or.inl (List.cons_prefix_cons.mpr ⟨rfl, hpre⟩)
          · right
            refine ⟨text, ?_⟩
            rw [pathText_cons _ hrest, pathText_cons _ (by simp), htext]
            simp only [String.append_assoc]

end Splicing

section Order

def key (p : Path) : JsString := ofText (pathText p)

lemma ofText_append (s t : String) : ofText (s ++ t) = ofText s ++ ofText t := by
  simp [ofText]

lemma keyLe_of_append {p q : Path} {text : String} (h : pathText q = pathText p ++ text) :
    keyLe (key p) (key q) := by
  unfold keyLe key
  rw [h, ofText_append, List.map_append]
  have hle : ∀ l m : List ℕ, l ≤ l ++ m := by
    intro l m
    induction l with
    | nil =>
      cases m with
      | nil => exact le_refl _
      | cons x m => exact le_of_lt (List.Lex.nil)
    | cons x l ih => exact List.cons_le_cons x ih
  exact hle _ _

lemma sorted_perm (files : List SourceFile) : (sorted files).Perm files := by
  have hperm := (sortKeys_perm (files.map fun f => (key f.1, f))).map Prod.snd
  have hid : (Prod.snd ∘ fun f : SourceFile => (key f.1, f)) = id := rfl
  rw [List.map_map, hid, List.map_id] at hperm
  exact hperm

lemma pairwise_sorted (files : List SourceFile) :
    (sorted files).Pairwise fun f g => keyLe (key f.1) (key g.1) := by
  have hpairs : (sortKeys (files.map fun f => (key f.1, f))).Pairwise Before :=
    List.pairwise_insertionSort _ _
  refine List.pairwise_map.mpr (hpairs.imp_of_mem ?_)
  intro m n hm hn hmn
  obtain ⟨f, _, rfl⟩ := List.mem_map.mp (mem_sortKeys.mp hm)
  obtain ⟨g, _, rfl⟩ := List.mem_map.mp (mem_sortKeys.mp hn)
  exact hmn

lemma sorted_of_pairwise {files : List SourceFile}
    (h : files.Pairwise fun f g => keyLe (key f.1) (key g.1)) : sorted files = files := by
  have hpairs : (files.map fun f => (key f.1, f)).Pairwise Before := List.pairwise_map.mpr h
  have hsort : sortKeys (files.map fun f => (key f.1, f)) = files.map fun f => (key f.1, f) :=
    List.Pairwise.insertionSort_eq hpairs
  have hid : (Prod.snd ∘ fun f : SourceFile => (key f.1, f)) = id := rfl
  have hsorted : sorted files = (sortKeys (files.map fun f => (key f.1, f))).map Prod.snd := rfl
  rw [hsorted, hsort, List.map_map, hid, List.map_id]

end Order

section Trees

variable {p q : Path} {b c : List UInt8}

/-- The tree of one file. -/
def nest : Path → List UInt8 → FileTree
  | [], b => .file b
  | n :: p, b => .dir [(n, nest p b)]

/-- The tree of two files, neither below the other. -/
def fork : Path → List UInt8 → Path → List UInt8 → FileTree
  | n :: p, b, m :: q, c =>
    if n = m then .dir [(n, fork p b q c)] else .dir [(n, nest p b), (m, nest q c)]
  | [], b, _, _ => .file b
  | _, _, [], c => .file c

lemma leaves_nest (hp : ∀ n ∈ p, IsSourceName n) : (nest p b).leaves excluded = [(p, some b)] := by
  induction p with
  | nil => simp [nest, leaves]
  | cons n p ih =>
    obtain ⟨hn, hrest⟩ := List.forall_mem_cons.mp hp
    simp [nest, leaves, leavesBelow, hn.2, ih hrest]

lemma wellFormed_nest (hp : ∀ n ∈ p, IsSourceName n) : (nest p b).WellFormed := by
  induction p with
  | nil => exact .file b
  | cons n p ih =>
    obtain ⟨hn, hrest⟩ := List.forall_mem_cons.mp hp
    apply WellFormed.dir
    · simpa using hn.1
    · simp
    · simpa using ih hrest

lemma leaves_fork (hp : ∀ n ∈ p, IsSourceName n) (hq : ∀ n ∈ q, IsSourceName n) (hpq : ¬ p <+: q)
    (hqp : ¬ q <+: p) : (fork p b q c).leaves excluded = [(p, some b), (q, some c)] := by
  induction p generalizing q with
  | nil => exact absurd List.nil_prefix hpq
  | cons n p ih =>
    cases q with
    | nil => exact absurd List.nil_prefix hqp
    | cons m q =>
      obtain ⟨hn, hprest⟩ := List.forall_mem_cons.mp hp
      obtain ⟨hm, hqrest⟩ := List.forall_mem_cons.mp hq
      rw [fork]
      split_ifs with hnm
      · subst hnm
        have hrest := ih hprest hqrest (fun h => hpq (List.cons_prefix_cons.mpr ⟨rfl, h⟩))
          (fun h => hqp (List.cons_prefix_cons.mpr ⟨rfl, h⟩))
        simp [leaves, leavesBelow, hn.2, hrest]
      · simp [leaves, leavesBelow, hn.2, hm.2, leaves_nest hprest, leaves_nest hqrest]

lemma wellFormed_fork (hp : ∀ n ∈ p, IsSourceName n) (hq : ∀ n ∈ q, IsSourceName n) :
    (fork p b q c).WellFormed := by
  induction p generalizing q with
  | nil => exact .file b
  | cons n p ih =>
    cases q with
    | nil => exact .file c
    | cons m q =>
      obtain ⟨hn, hprest⟩ := List.forall_mem_cons.mp hp
      obtain ⟨hm, hqrest⟩ := List.forall_mem_cons.mp hq
      rw [fork]
      split_ifs with hnm
      · apply WellFormed.dir
        · simpa using hn.1
        · simp
        · simpa using ih hprest hqrest
      · apply WellFormed.dir
        · simpa using ⟨hn.1, hm.1⟩
        · simpa using hnm
        · simpa using ⟨wellFormed_nest hprest, wellFormed_nest hqrest⟩

lemma isDir_nest (hp : p ≠ []) : ∃ children, nest p b = .dir children := by
  cases p with
  | nil => exact absurd rfl hp
  | cons n p => exact ⟨_, rfl⟩

lemma isDir_fork (hp : p ≠ []) (hq : q ≠ []) : ∃ children, fork p b q c = .dir children := by
  cases p with
  | nil => exact absurd rfl hp
  | cons n p =>
    cases q with
    | nil => exact absurd rfl hq
    | cons m q =>
      rw [fork]
      split_ifs <;> exact ⟨_, rfl⟩

lemma hashable_of_leaves {t : FileTree} (files : List SourceFile) (hdir : ∃ children, t = .dir children)
    (h : t.leaves excluded = files.map fun f => (f.1, some f.2)) :
    Hashable t ∧ sourceFiles t = files := by
  obtain ⟨children, rfl⟩ := hdir
  constructor
  · intro p hp
    rw [h] at hp
    obtain ⟨f, _, heq⟩ := List.mem_map.mp hp
    cases heq
  · rw [sourceFiles, h, List.filterMap_map]
    exact List.filterMap_some

lemma exists_nest (hp : IsSourcePath p) (b : List UInt8) :
    ∃ t : SourceTree, sourceFiles t.1 = [(p, b)] := by
  obtain ⟨hhash, hfiles⟩ := hashable_of_leaves [(p, b)] (isDir_nest hp.1) (leaves_nest hp.2)
  exact ⟨⟨nest p b, wellFormed_nest hp.2, hhash⟩, hfiles⟩

lemma exists_fork (hp : IsSourcePath p) (hq : IsSourcePath q) (hpq : ¬ p <+: q) (hqp : ¬ q <+: p)
    (b c : List UInt8) : ∃ t : SourceTree, sourceFiles t.1 = [(p, b), (q, c)] := by
  obtain ⟨hhash, hfiles⟩ := hashable_of_leaves [(p, b), (q, c)] (isDir_fork hp.1 hq.1)
    (leaves_fork hp.2 hq.2 hpq hqp)
  exact ⟨⟨fork p b q c, wellFormed_fork hp.2 hq.2, hhash⟩, hfiles⟩

lemma SourceTree.isSourcePath (t : SourceTree) {f : SourceFile} (hf : f ∈ sourceFiles t.1) :
    IsSourcePath f.1 := by
  obtain ⟨t, hwell, hhash⟩ := t
  cases t with
  | dir children => exact names_of_mem_sourceFiles hwell hf
  | file bytes => cases hhash
  | link => cases hhash

lemma SourceTree.eq_of_below (t : SourceTree) {f g : SourceFile} (hf : f ∈ sourceFiles t.1)
    (hg : g ∈ sourceFiles t.1) (h : f.1 <+: g.1) : f = g := by
  obtain ⟨hpath, hbytes⟩ :=
    FileTree.eq_of_below t.2.1 (mem_sourceFiles.mp hf) (mem_sourceFiles.mp hg) h
  exact Prod.ext hpath (Option.some.inj hbytes)

end Trees

section Streams

variable {f g : SourceFile} {fs : List SourceFile}

def streamText (files : List SourceFile) : String :=
  files.foldr (fun f text => pathText f.1 ++ sha256Hex f.2 ++ text) ""

lemma stream_eq (files : List SourceFile) : stream files = utf8 (streamText files) := by
  induction files with
  | nil => rfl
  | cons f fs ih =>
    have hcons : streamText (f :: fs) = pathText f.1 ++ sha256Hex f.2 ++ streamText fs := rfl
    have hstream : stream (f :: fs) = utf8 (pathText f.1) ++ utf8 (sha256Hex f.2) ++ stream fs := by
      simp [stream]
    rw [hcons, hstream, utf8_append, utf8_append, ih]

lemma streamText_singleton (f : SourceFile) : streamText [f] = pathText f.1 ++ sha256Hex f.2 := by
  simp [streamText]

/-- The one file whose stream is that of all the files. -/
def mergeFiles : SourceFile → List SourceFile → SourceFile
  | f, [] => f
  | f, g :: fs => (splice (sha256Hex f.2) f.1 (mergeFiles g fs).1, (mergeFiles g fs).2)

lemma isSourcePath_mergeFiles (h : ∀ g ∈ f :: fs, IsSourcePath g.1) :
    IsSourcePath (mergeFiles f fs).1 := by
  induction fs generalizing f with
  | nil => exact h f List.mem_cons_self
  | cons g fs ih =>
    obtain ⟨hf, hrest⟩ := List.forall_mem_cons.mp h
    exact isSourcePath_splice hf (ih hrest) (isDigest_sha256Hex f.2)

lemma mergeFiles_bytes (f : SourceFile) (fs : List SourceFile) :
    ∃ g ∈ f :: fs, (mergeFiles f fs).2 = g.2 := by
  induction fs generalizing f with
  | nil => exact ⟨f, List.mem_cons_self, rfl⟩
  | cons g fs ih =>
    obtain ⟨g', hmem, hbytes⟩ := ih g
    exact ⟨g', List.mem_cons_of_mem f hmem, hbytes⟩

lemma streamText_mergeFiles (h : ∀ g ∈ f :: fs, IsSourcePath g.1) :
    streamText [mergeFiles f fs] = streamText (f :: fs) := by
  induction fs generalizing f with
  | nil => rfl
  | cons g fs ih =>
    obtain ⟨hf, hrest⟩ := List.forall_mem_cons.mp h
    have hcons : streamText (f :: g :: fs) = pathText f.1 ++ sha256Hex f.2 ++ streamText (g :: fs) := rfl
    rw [hcons, ← ih hrest, streamText_singleton, streamText_singleton, mergeFiles,
      pathText_splice hf.1 (isSourcePath_mergeFiles hrest).1]
    simp only [String.append_assoc]

/-- The digest at the end of a text is seen. -/
lemma append_digest {s t : String} {b c : List UInt8} (h : s ++ sha256Hex b = t ++ sha256Hex c) :
    s = t ∧ sha256Hex b = sha256Hex c := by
  have hlists := congrArg String.toList h
  rw [String.toList_append, String.toList_append] at hlists
  have hlen : (sha256Hex b).toList.length = (sha256Hex c).toList.length :=
    (isDigest_sha256Hex b).1.trans (isDigest_sha256Hex c).1.symm
  obtain ⟨hs, hd⟩ := List.append_inj' hlists hlen
  exact ⟨String.toList_injective hs, String.toList_injective hd⟩

lemma sha256_of_hex {b c : List UInt8} (h : sha256Hex b = sha256Hex c) : sha256 b = sha256 c := by
  have hlists := congrArg String.toList h
  rwa [sha256Hex, sha256Hex, String.toList_ofList, String.toList_ofList] at hlists

end Streams

section Binding

/-- What the hash function is given for the digest of a tree. -/
def hashInputs (t : FileTree) : Set (List UInt8) :=
  {b | b = stream (sorted (sourceFiles t)) ∨ ∃ f ∈ sourceFiles t, b = f.2}

def SameFiles (t u : FileTree) : Prop := ∀ f, f ∈ sourceFiles t ↔ f ∈ sourceFiles u

/-- No other tree has the digest. -/
def Binds (t : SourceTree) : Prop :=
  ∀ u : SourceTree, CollisionFree (hashInputs t.1 ∪ hashInputs u.1) →
    (contentHashDir t.1 = contentHashDir u.1 ↔ SameFiles t.1 u.1)

/-- The path is a path, the digest of some bytes, and a path that may stand beside the first. -/
def Splits (p : Path) : Prop :=
  ∃ q bytes r, IsSourcePath q ∧ IsSourcePath r ∧
    pathText p = pathText q ++ sha256Hex bytes ++ pathText r ∧ keyLe (key q) (key r) ∧ ¬ q <+: r

variable {t u : SourceTree} {f g : SourceFile} {fs : List SourceFile}

lemma contentHashDir_eq_iff (h : CollisionFree (hashInputs t.1 ∪ hashInputs u.1)) :
    contentHashDir t.1 = contentHashDir u.1 ↔
      streamText (sorted (sourceFiles t.1)) = streamText (sorted (sourceFiles u.1)) := by
  rw [contentHashDir_ok t.2.2, contentHashDir_ok u.2.2, Except.ok.injEq, treeDigest, treeDigest]
  constructor
  · intro hdigest
    have hhex := Text.append_right_injective "sha256:" hdigest
    have hbytes := h.eq (Or.inl (Or.inl rfl)) (Or.inr (Or.inl rfl)) (sha256_of_hex hhex)
    rw [stream_eq, stream_eq] at hbytes
    exact utf8_injective hbytes
  · intro htext
    rw [stream_eq, stream_eq, htext]

lemma mem_sorted (files : List SourceFile) : f ∈ sorted files ↔ f ∈ files :=
  (sorted_perm files).mem_iff

lemma SameFiles.sorted_eq (h : SameFiles t.1 u.1) :
    sorted (sourceFiles t.1) = sorted (sourceFiles u.1) := by
  have hnodup : ∀ v : SourceTree, (sourceFiles v.1).Nodup := fun v =>
    List.Nodup.of_map _ (nodup_sourceFiles v.2.1)
  have hperm := (List.perm_ext_iff_of_nodup (hnodup t) (hnodup u)).mpr h
  obtain ⟨t, hwell, hhash⟩ := t
  cases t with
  | dir children => exact (sorted_eq_of_perm (nodup_keys hwell) hperm.symm).symm
  | file bytes => cases hhash
  | link => cases hhash

lemma SameFiles.of_sorted (h : sorted (sourceFiles t.1) = sorted (sourceFiles u.1)) :
    SameFiles t.1 u.1 := by
  intro f
  rw [← mem_sorted (sourceFiles t.1), h, mem_sorted]

lemma isSourcePath_sorted (t : SourceTree) (hf : f ∈ sorted (sourceFiles t.1)) : IsSourcePath f.1 :=
  t.isSourcePath ((mem_sorted _).mp hf)

/-- Two files or more have the digest of one, in a directory named after the first and its digest. -/
lemma not_binds_of_two (h : CollisionFree (hashInputs t.1))
    (hfiles : sorted (sourceFiles t.1) = f :: g :: fs) : ¬ Binds t := by
  intro hbinds
  have hmem : ∀ g' ∈ f :: g :: fs, g' ∈ sourceFiles t.1 := by
    intro g' hg'
    rw [← hfiles] at hg'
    exact (mem_sorted _).mp hg'
  have hpaths : ∀ g' ∈ f :: g :: fs, IsSourcePath g'.1 := fun g' hg' => t.isSourcePath (hmem g' hg')
  obtain ⟨u, hu⟩ := exists_nest (isSourcePath_mergeFiles hpaths) (mergeFiles f (g :: fs)).2
  have hone : sorted (sourceFiles u.1) = [mergeFiles f (g :: fs)] := by
    rw [hu]
    exact sorted_of_pairwise (List.pairwise_singleton _ _)
  have htext : streamText (sorted (sourceFiles t.1)) = streamText (sorted (sourceFiles u.1)) := by
    rw [hfiles, hone, streamText_mergeFiles hpaths]
  have hinputs : hashInputs u.1 ⊆ hashInputs t.1 := by
    rintro b (rfl | ⟨f', hf', rfl⟩)
    · left
      rw [stream_eq, stream_eq, htext]
    · rw [hu, List.mem_singleton] at hf'
      obtain ⟨g', hg', hbytes⟩ := mergeFiles_bytes f (g :: fs)
      exact Or.inr ⟨g', hmem g' hg', by rw [hf', hbytes]⟩
  have hfree : CollisionFree (hashInputs t.1 ∪ hashInputs u.1) := by
    rw [Set.union_eq_self_of_subset_right hinputs]
    exact h
  have hsame := (hbinds u hfree).mp ((contentHashDir_eq_iff hfree).mpr htext)
  have hf := (hsame f).mp (hmem f List.mem_cons_self)
  have hg := (hsame g).mp (hmem g (List.mem_cons_of_mem _ List.mem_cons_self))
  rw [hu, List.mem_singleton] at hf hg
  have hnodup : (sorted (sourceFiles t.1)).Nodup :=
    (sorted_perm _).nodup_iff.mpr (List.Nodup.of_map _ (nodup_sourceFiles t.2.1))
  rw [hfiles, List.nodup_cons] at hnodup
  apply hnodup.1
  rw [hf, ← hg]
  exact List.mem_cons_self

/-- Bytes with a given digest, chosen among the given ones where they have it. -/
lemma exists_representative (b x y : List UInt8) (hxy : sha256 x = sha256 y → x = y) :
    ∃ c, sha256 c = sha256 b ∧ CollisionFree {x, y, c} := by
  by_cases hx : sha256 x = sha256 b
  · refine ⟨x, hx, ?_⟩
    rintro m (rfl | rfl | rfl) n (rfl | rfl | rfl) he
    all_goals first | rfl | exact hxy he | exact (hxy he.symm).symm
  · by_cases hy : sha256 y = sha256 b
    · refine ⟨y, hy, ?_⟩
      rintro m (rfl | rfl | rfl) n (rfl | rfl | rfl) he
      all_goals first | rfl | exact hxy he | exact (hxy he.symm).symm
    · refine ⟨b, rfl, ?_⟩
      rintro m (rfl | rfl | rfl) n (rfl | rfl | rfl) he
      all_goals
        first
        | rfl
        | exact hxy he
        | exact (hxy he.symm).symm
        | exact absurd he hx
        | exact absurd he hy
        | exact absurd he.symm hx
        | exact absurd he.symm hy

lemma keyLe_of_below {p q : Path} (hp : p ≠ []) (h : p <+: q) : keyLe (key p) (key q) := by
  obtain ⟨rest, rfl⟩ := h
  by_cases hrest : rest = []
  · rw [hrest, List.append_nil]
    exact le_refl _
  · exact keyLe_of_append (pathText_append hp hrest)

lemma IsSourcePath.eq_of_keyLe {p q : Path} (hp : IsSourcePath p) (hq : IsSourcePath q)
    (hpq : keyLe (key p) (key q)) (hqp : keyLe (key q) (key p)) : p = q :=
  hp.eq hq (ofText_injective (keyLe_antisymm hpq hqp))

/-- A path that splits is the listing of two files, whose bytes can be chosen without a collision. -/
lemma not_binds_of_splits (h : CollisionFree (hashInputs t.1)) (hfiles : sourceFiles t.1 = [f])
    (hsplits : Splits f.1) : ¬ Binds t := by
  intro hbinds
  obtain ⟨q, bytes, r, hq, hr, htext, hle, hqr⟩ := hsplits
  have hne : q ≠ r := by
    rintro rfl
    exact hqr (List.prefix_refl q)
  have hrq : ¬ r <+: q := fun hpre => hne (hq.eq_of_keyLe hr hle (keyLe_of_below hr.1 hpre))
  have hone : sorted (sourceFiles t.1) = [f] := by
    rw [hfiles]
    exact sorted_of_pairwise (List.pairwise_singleton _ _)
  have hx : f.2 ∈ hashInputs t.1 := Or.inr ⟨f, by rw [hfiles]; exact List.mem_singleton_self f, rfl⟩
  have hy : stream [f] ∈ hashInputs t.1 := Or.inl (by rw [hone])
  obtain ⟨c, hc, hfree⟩ := exists_representative bytes f.2 (stream [f]) fun he => h.eq hx hy he
  obtain ⟨u, hu⟩ := exists_fork hq hr hqr hrq c f.2
  have htwo : sorted (sourceFiles u.1) = [(q, c), (r, f.2)] := by
    rw [hu]
    apply sorted_of_pairwise
    simpa using hle
  have hhex : sha256Hex c = sha256Hex bytes := congrArg String.ofList hc
  have hstream : streamText (sorted (sourceFiles t.1)) = streamText (sorted (sourceFiles u.1)) := by
    have hcons : streamText [(q, c), (r, f.2)] = pathText q ++ sha256Hex c ++ streamText [(r, f.2)] := rfl
    rw [hone, htwo, hcons, streamText_singleton, streamText_singleton, htext, hhex]
    simp only [String.append_assoc]
  have hinputs : hashInputs t.1 ∪ hashInputs u.1 ⊆ {f.2, stream [f], c} := by
    rintro b ((rfl | ⟨f', hf', rfl⟩) | (rfl | ⟨f', hf', rfl⟩))
    · rw [hone]
      exact Or.inr (Or.inl rfl)
    · rw [hfiles, List.mem_singleton] at hf'
      exact Or.inl (congrArg Prod.snd hf')
    · have hsame : stream (sorted (sourceFiles u.1)) = stream [f] := by
        rw [stream_eq, ← hstream, hone, ← stream_eq]
      rw [hsame]
      exact Or.inr (Or.inl rfl)
    · rw [hu, List.mem_cons, List.mem_singleton] at hf'
      cases hf' with
      | inl hf' =>
        rw [hf']
        exact Or.inr (Or.inr rfl)
      | inr hf' =>
        rw [hf']
        exact Or.inl rfl
  have hunion : CollisionFree (hashInputs t.1 ∪ hashInputs u.1) := hfree.mono hinputs
  have hsame := (hbinds u hunion).mp ((contentHashDir_eq_iff hunion).mpr hstream)
  have hfirst := (hsame (q, c)).mpr (by rw [hu]; simp)
  have hsecond := (hsame (r, f.2)).mpr (by rw [hu]; simp)
  rw [hfiles, List.mem_singleton] at hfirst hsecond
  exact hne (congrArg Prod.fst (hfirst.trans hsecond.symm))

/-- What comes before the first of the merged files, and beside it, does so for the merged one. -/
lemma mergeFiles_after {p : Path} (hp : IsSourcePath p) (h : ∀ g ∈ f :: fs, IsSourcePath g.1)
    (hle : keyLe (key p) (key f.1)) (hbeside : ¬ p <+: f.1) :
    keyLe (key p) (key (mergeFiles f fs).1) ∧ ¬ p <+: (mergeFiles f fs).1 := by
  cases fs with
  | nil => exact ⟨hle, hbeside⟩
  | cons g fs =>
    obtain ⟨hf, hrest⟩ := List.forall_mem_cons.mp h
    rw [mergeFiles]
    constructor
    · have htext := pathText_splice (d := sha256Hex f.2) hf.1 (isSourcePath_mergeFiles hrest).1
      rw [String.append_assoc] at htext
      exact le_trans hle (keyLe_of_append htext)
    · intro hpre
      obtain hbelow | ⟨text, htext⟩ := prefix_splice hp.1 hf.1 hpre
      · exact hbeside hbelow
      · rw [hp.eq_of_keyLe hf hle (keyLe_of_append htext)] at hbeside
        exact hbeside (List.prefix_refl _)

lemma streamText_cons (f : SourceFile) (fs : List SourceFile) :
    streamText (f :: fs) = pathText f.1 ++ sha256Hex f.2 ++ streamText fs := rfl

lemma streamText_cons_ne (f : SourceFile) (fs : List SourceFile) : streamText (f :: fs) ≠ "" := by
  intro h
  have hlists := congrArg (fun s => s.toList.length) h
  simp only [streamText_cons, String.toList_append, List.length_append, (isDigest_sha256Hex f.2).1,
    String.toList_empty, List.length_nil] at hlists
  omega

/-- A stream that ends in the digest of the one file comes from that file, or splits its path. -/
lemma single_or_splits (h : CollisionFree (hashInputs t.1 ∪ hashInputs u.1))
    (hfiles : sourceFiles t.1 = [f]) (htext : streamText (sorted (sourceFiles u.1)) = streamText [f]) :
    sorted (sourceFiles u.1) = [f] ∨ Splits f.1 := by
  have hmem : f ∈ sourceFiles t.1 := by
    rw [hfiles]
    exact List.mem_singleton_self f
  cases hu : sorted (sourceFiles u.1) with
  | nil =>
    rw [hu] at htext
    exact absurd htext.symm (streamText_cons_ne f [])
  | cons g fs =>
    have hpath : ∀ g' ∈ g :: fs, IsSourcePath g'.1 := by
      intro g' hg'
      rw [← hu] at hg'
      exact isSourcePath_sorted u hg'
    cases fs with
    | nil =>
      left
      rw [hu, streamText_singleton, streamText_singleton] at htext
      obtain ⟨hpaths, hdigest⟩ := append_digest htext
      have hg : g ∈ sourceFiles u.1 := (mem_sorted _).mp (hu ▸ List.mem_cons_self)
      have hbytes := h.eq (Or.inr (Or.inr ⟨g, hg, rfl⟩)) (Or.inl (Or.inr ⟨f, hmem, rfl⟩))
        (sha256_of_hex hdigest)
      have heq := (hpath g List.mem_cons_self).eq (t.isSourcePath hmem) hpaths
      rw [Prod.ext heq hbytes]
    | cons g' fs =>
      right
      obtain ⟨hg, hrest⟩ := List.forall_mem_cons.mp hpath
      rw [hu, streamText_cons, ← streamText_mergeFiles hrest, streamText_singleton, streamText_singleton,
        ← String.append_assoc] at htext
      obtain ⟨hpaths, _⟩ := append_digest htext
      have hpair := pairwise_sorted (sourceFiles u.1)
      rw [hu, List.pairwise_cons] at hpair
      have hle : keyLe (key g.1) (key g'.1) := hpair.1 g' List.mem_cons_self
      have hnodup : (sorted (sourceFiles u.1)).Nodup :=
        (sorted_perm _).nodup_iff.mpr (List.Nodup.of_map _ (nodup_sourceFiles u.2.1))
      rw [hu, List.nodup_cons] at hnodup
      have hg' := (List.forall_mem_cons.mp hrest).1
      have hne : g ≠ g' := by
        rintro rfl
        exact hnodup.1 List.mem_cons_self
      have hin : ∀ g'' ∈ g :: g' :: fs, g'' ∈ sourceFiles u.1 := by
        intro g'' hg''
        rw [← hu] at hg''
        exact (mem_sorted _).mp hg''
      have hbeside : ¬ g.1 <+: g'.1 := fun hpre =>
        hne (u.eq_of_below (hin g (by simp)) (hin g' (by simp)) hpre)
      obtain ⟨hafter, hfork⟩ := mergeFiles_after hg hrest hle hbeside
      exact ⟨g.1, g.2, _, hg, isSourcePath_mergeFiles hrest, hpaths.symm, hafter, hfork⟩

/-- The digest of a tree is no other tree's, as far as SHA-256 has no collision, exactly where the tree
has no file, or one whose path does not split. -/
theorem contentHash_binds_iff (t : SourceTree) :
    Binds t ↔ (CollisionFree (hashInputs t.1) →
      sourceFiles t.1 = [] ∨ ∃ f, sourceFiles t.1 = [f] ∧ ¬ Splits f.1) := by
  constructor
  · intro hbinds hfree
    cases hsorted : sorted (sourceFiles t.1) with
    | nil =>
      left
      have hperm := sorted_perm (sourceFiles t.1)
      rw [hsorted] at hperm
      exact List.nil_perm.mp hperm
    | cons f fs =>
      right
      cases fs with
      | nil =>
        have hperm := sorted_perm (sourceFiles t.1)
        rw [hsorted] at hperm
        have hone := (List.singleton_perm.mp hperm).symm
        exact ⟨f, hone, fun hsplits => not_binds_of_splits hfree hone hsplits hbinds⟩
      | cons g fs => exact absurd hbinds (not_binds_of_two hfree hsorted)
  · intro h u hunion
    have hfree : CollisionFree (hashInputs t.1) := hunion.mono Set.subset_union_left
    rw [contentHashDir_eq_iff hunion]
    constructor
    · intro htext
      apply SameFiles.of_sorted
      obtain hnil | ⟨f, hone, hsplits⟩ := h hfree
      · have hempty : sorted (sourceFiles t.1) = [] := by
          rw [hnil]
          rfl
        rw [hempty] at htext ⊢
        cases hu : sorted (sourceFiles u.1) with
        | nil => rfl
        | cons g fs =>
          rw [hu] at htext
          exact absurd htext.symm (streamText_cons_ne g fs)
      · have hsorted : sorted (sourceFiles t.1) = [f] := by
          rw [hone]
          exact sorted_of_pairwise (List.pairwise_singleton _ _)
        rw [hsorted] at htext
        obtain hsame | hsplit := single_or_splits hunion hone htext.symm
        · rw [hsorted, hsame]
        · exact absurd hsplit hsplits
    · intro hsame
      rw [hsame.sorted_eq]

def twoFiles : SourceTree :=
  ⟨.dir [("x", .file []), ("y", .file [])], by
    have hsource : IsSourceName "x" ∧ IsSourceName "y" := by decide
    have hleaves : (FileTree.dir [("x", .file []), ("y", .file [])]).leaves excluded =
        [((["x"], []) : SourceFile), (["y"], [])].map fun f => (f.1, some f.2) := by decide
    refine ⟨.dir ?_ (by decide) ?_, (hashable_of_leaves _ ⟨_, rfl⟩ hleaves).1⟩
    · simpa using ⟨hsource.1.1, hsource.2.1⟩
    · simpa using WellFormed.file []⟩

/-- One file, named after the first of the two files, its digest and the second. -/
def oneFile : SourceTree :=
  ⟨nest ["x" ++ sha256Hex [] ++ "y"] [], by
    have hname : IsSourceName ("x" ++ sha256Hex [] ++ "y") :=
      isSourceName_splice (by decide) (by decide) (isDigest_sha256Hex [])
    have hnames : ∀ n ∈ ["x" ++ sha256Hex [] ++ "y"], IsSourceName n := by simpa using hname
    exact ⟨wellFormed_nest hnames, (hashable_of_leaves [(["x" ++ sha256Hex [] ++ "y"], [])]
      (isDir_nest (by simp)) (leaves_nest hnames)).1⟩⟩

theorem contentHash_collision :
    CollisionFree (hashInputs twoFiles.1 ∪ hashInputs oneFile.1) ∧
      contentHashDir twoFiles.1 = contentHashDir oneFile.1 ∧ ¬ SameFiles twoFiles.1 oneFile.1 := by
  have htwo : sourceFiles twoFiles.1 = [(["x"], []), (["y"], [])] := by decide
  have hone : sourceFiles oneFile.1 = [(["x" ++ sha256Hex [] ++ "y"], [])] := by decide +kernel
  have htext : streamText (sorted (sourceFiles twoFiles.1)) =
      streamText (sorted (sourceFiles oneFile.1)) := by decide +kernel
  have hdigest : sha256 [] ≠ sha256 (stream (sorted (sourceFiles twoFiles.1))) := by decide +kernel
  have hinputs : hashInputs twoFiles.1 ∪ hashInputs oneFile.1 ⊆
      {[], stream (sorted (sourceFiles twoFiles.1))} := by
    rintro b ((rfl | ⟨f, hf, rfl⟩) | (rfl | ⟨f, hf, rfl⟩))
    · exact Or.inr rfl
    · left
      rw [htwo] at hf
      simp only [List.mem_cons, List.not_mem_nil, or_false] at hf
      cases hf with
      | inl hf => rw [hf]
      | inr hf => rw [hf]
    · have hsame : stream (sorted (sourceFiles oneFile.1)) = stream (sorted (sourceFiles twoFiles.1)) := by
        rw [stream_eq, stream_eq, htext]
      exact Or.inr hsame
    · left
      rw [hone, List.mem_singleton] at hf
      rw [hf]
  have hfree : CollisionFree (hashInputs twoFiles.1 ∪ hashInputs oneFile.1) := by
    refine Set.InjOn.mono hinputs ?_
    rintro m (rfl | rfl) n (rfl | rfl) he
    · rfl
    · exact absurd he hdigest
    · exact absurd he.symm hdigest
    · rfl
  refine ⟨hfree, (contentHashDir_eq_iff hfree).mpr htext, fun hsame => ?_⟩
  have hmem := (hsame (["x"], [])).mp (by rw [htwo]; exact List.mem_cons_self)
  rw [hone, List.mem_singleton] at hmem
  have hlength := congrArg (fun f : SourceFile => (pathText f.1).length) hmem
  revert hlength
  decide +kernel

end Binding

end VivimOmega.Host

import VivimOmega.Host.Canon
import VivimOmega.Library.Json.Stringify
import VivimOmega.Library.FileTree
import VivimOmega.Library.Transition

/-! The content hash of a plugin source tree, and the same hash by a walk whose parts finish in any
order. -/

namespace VivimOmega.Host

open Library Library.Json Library.Sha256 FileTree

def excludeContent : List String :=
  ["node_modules", ".git", "plugin.json", "package.json", "package.json.orig", ".DS_Store"]

def excluded (name : String) : Bool := name ∈ excludeContent

abbrev SourceFile := Path × List UInt8

mutual

def walk (here : Path) : List (String × FileTree) → Except String (List SourceFile)
  | [] => return []
  | (name, node) :: rest =>
    if excluded name then walk here rest
    else do
      let found ← visit (here ++ [name]) node
      let others ← walk here rest
      return found ++ others

def visit (p : Path) : FileTree → Except String (List SourceFile)
  | .link =>
    throw ("Error: contentHashDir: symlink in plugin source tree (fail-closed, D-384): " ++ pathText p)
  | .dir children => walk p children
  | .file bytes => return [(p, bytes)]

end

/-- The order of `files.sort()`: the absolute paths it compares begin alike. -/
def sorted (files : List SourceFile) : List SourceFile :=
  (sortKeys (files.map fun f => (ofText (pathText f.1), f))).map Prod.snd

def stream (files : List SourceFile) : List UInt8 :=
  files.flatMap fun f => utf8 (pathText f.1) ++ utf8 (sha256Hex f.2)

def treeDigest (files : List SourceFile) : String := "sha256:" ++ sha256Hex (stream (sorted files))

def notDirectory : String := "Error: ENOTDIR: not a directory, scandir"

def contentHashDir : FileTree → Except String String
  | .dir children => do
    let files ← walk [] children
    return treeDigest files
  | _ => throw notDirectory

/-- The concurrent walk: what it still waits for, and the files pushed so far. -/
structure Walking where
  pending : List (Path × FileTree)
  files : List SourceFile

def tasks (here : Path) (children : List (String × FileTree)) : List (Path × FileTree) :=
  (children.filter fun c => !excluded c.1).map fun c => (here ++ [c.1], c.2)

/-- The walks of a directory; an event says which of the pending ones goes on. -/
def walks (children : List (String × FileTree)) : System Walking ℕ where
  init w := w = ⟨tasks [] children, []⟩
  step w i :=
    match w.pending[i]? with
    | some (here, .dir children) =>
      some ⟨w.pending.take i ++ tasks here children ++ w.pending.drop (i + 1), w.files⟩
    | some (p, .file bytes) =>
      some ⟨w.pending.take i ++ w.pending.drop (i + 1), w.files ++ [(p, bytes)]⟩
    | some (_, .link) => none
    | none => none

/-- What `contentHashDirAsync` may settle with. -/
inductive ContentHashDirAsync : FileTree → Except String String → Prop
  | hashed {children : List (String × FileTree)} {w : Walking}
      (h : (walks children).Reachable System.free w) (hdone : w.pending = []) :
      ContentHashDirAsync (.dir children) (.ok (treeDigest w.files))
  | refused {children : List (String × FileTree)} {w : Walking} {p : Path}
      (h : (walks children).Reachable System.free w) (hlink : (p, FileTree.link) ∈ w.pending) :
      ContentHashDirAsync (.dir children)
        (.error ("Error: contentHashDir: symlink (fail-closed, D-384): " ++ pathText p))
  | notDir {t : FileTree} (h : ∀ children, t ≠ .dir children) :
      ContentHashDirAsync t (.error notDirectory)

section Walk

variable {children : List (String × FileTree)} {t : FileTree} {w w' : Walking} {i : ℕ}

def located (c : Path × FileTree) : List (Path × Leaf) :=
  (c.2.leaves excluded).map fun l => (c.1 ++ l.1, l.2)

/-- The files of a directory tree, in listing order. -/
def sourceFiles (t : FileTree) : List SourceFile :=
  (t.leaves excluded).filterMap fun l => l.2.map fun bytes => (l.1, bytes)

def LinkFree (t : FileTree) : Prop := ∀ p, (p, none) ∉ t.leaves excluded

/-- A directory without links is what can be hashed. -/
def Hashable : FileTree → Prop
  | .dir children => LinkFree (.dir children)
  | _ => False

/-- What the content hash is made from: a directory without links. -/
abbrev SourceTree := {t : FileTree // t.WellFormed ∧ Hashable t}

lemma located_tasks (here : Path) (children : List (String × FileTree)) :
    (tasks here children).flatMap located = located (here, .dir children) := by
  induction children with
  | nil => rfl
  | cons c rest ih =>
    obtain ⟨n, t⟩ := c
    unfold located at ih ⊢
    rw [leaves] at ih ⊢
    rw [leavesBelow]
    cases hn : excluded n with
    | true => simpa [tasks, hn] using ih
    | false =>
      have htasks : tasks here ((n, t) :: rest) = (here ++ [n], t) :: tasks here rest := by
        simp [tasks, hn]
      rw [htasks, List.flatMap_cons, ih]
      simp

/-- What is pending and what was pushed make up the tree. -/
def Walking.Covers (children : List (String × FileTree)) (w : Walking) : Prop :=
  (w.pending.flatMap located ++ w.files.map fun f => (f.1, some f.2)).Perm
    (leavesBelow excluded children)

lemma pending_split (h : w.pending[i]? = some (here, t)) :
    w.pending = w.pending.take i ++ (here, t) :: w.pending.drop (i + 1) := by
  obtain ⟨hi, hget⟩ := List.getElem?_eq_some_iff.mp h
  rw [← hget, ← List.drop_eq_getElem_cons hi, List.take_append_drop]

lemma Walking.Covers.step (h : w.Covers children) (hs : (walks children).step w i = some w') :
    w'.Covers children := by
  unfold walks at hs
  dsimp only at hs
  split at hs
  · rename_i here below hget
    cases hs
    have hsplit := pending_split hget
    rw [Covers, hsplit, List.flatMap_append, List.flatMap_cons] at h
    rw [Covers, List.flatMap_append, List.flatMap_append, located_tasks]
    simpa only [List.append_assoc] using h
  · rename_i p bytes hget
    cases hs
    have hsplit := pending_split hget
    have hone : located (p, .file bytes) = [(p, some bytes)] := by simp [located, leaves]
    rw [Covers, hsplit, List.flatMap_append, List.flatMap_cons, hone] at h
    rw [Covers, List.flatMap_append, List.map_append]
    refine List.Perm.trans ?_ h
    rw [List.append_assoc, List.append_assoc]
    apply List.Perm.append_left
    rw [← List.append_assoc]
    exact List.perm_append_singleton _ _
  · cases hs
  · cases hs

lemma reachable_covers (h : (walks children).Reachable System.free w) : w.Covers children := by
  apply h.invariant (P := fun w => w.Covers children)
  · rintro _ rfl
    have hroot := located_tasks [] children
    rw [Walking.Covers, hroot]
    simp [located, leaves]
  · intro s e t _ hs _ hstep
    exact hs.step hstep

noncomputable def Walking.weight (w : Walking) : ℕ := (w.pending.map fun c => sizeOf c.2).sum

lemma weight_tasks (here : Path) (children : List (String × FileTree)) :
    ((tasks here children).map fun c => sizeOf c.2).sum < sizeOf (FileTree.dir children) := by
  have hsum : ((tasks here children).map fun c => sizeOf c.2).sum ≤ sizeOf children := by
    induction children with
    | nil => simp [tasks]
    | cons c rest ih =>
      obtain ⟨n, t⟩ := c
      cases hn : excluded n with
      | true =>
        have htasks : tasks here ((n, t) :: rest) = tasks here rest := by simp [tasks, hn]
        rw [htasks]
        simp
        omega
      | false =>
        have htasks : tasks here ((n, t) :: rest) = (here ++ [n], t) :: tasks here rest := by
          simp [tasks, hn]
        rw [htasks]
        simp
        omega
  simp
  omega

lemma Walking.weight_step (hs : (walks children).step w i = some w') : w'.weight < w.weight := by
  unfold walks at hs
  dsimp only at hs
  split at hs
  · rename_i here below hget
    cases hs
    have hsplit := congrArg (fun l => (l.map fun c => sizeOf c.2).sum) (pending_split hget)
    have htasks := weight_tasks here below
    simp only [List.map_append, List.map_cons, List.sum_append, List.sum_cons] at hsplit
    simp only [Walking.weight, List.map_append, List.sum_append]
    omega
  · rename_i p bytes hget
    cases hs
    have hsplit := congrArg (fun l => (l.map fun c => sizeOf c.2).sum) (pending_split hget)
    simp only [List.map_append, List.map_cons, List.sum_append, List.sum_cons] at hsplit
    simp only [Walking.weight, List.map_append, List.sum_append]
    have hsize : 0 < sizeOf (FileTree.file bytes) := by simp
    omega
  · cases hs
  · cases hs

/-- Every walk ends: done, or at a link. -/
lemma walk_ends (h : (walks children).Reachable System.free w) :
    ∃ w', (walks children).Reachable System.free w' ∧
      (w'.pending = [] ∨ ∃ p, (p, FileTree.link) ∈ w'.pending) := by
  induction hn : w.weight using Nat.strong_induction_on generalizing w with
  | _ n ih =>
    subst hn
    cases hpending : w.pending with
    | nil => exact ⟨w, h, Or.inl hpending⟩
    | cons c rest =>
      obtain ⟨p, t⟩ := c
      have hget : w.pending[0]? = some (p, t) := by rw [hpending]; rfl
      cases t with
      | link => exact ⟨w, h, Or.inr ⟨p, by rw [hpending]; exact List.mem_cons_self⟩⟩
      | dir below =>
        have hs : (walks children).step w 0 =
            some ⟨w.pending.take 0 ++ tasks p below ++ w.pending.drop 1, w.files⟩ := by
          simp [walks, hget]
        exact ih _ (Walking.weight_step hs) (h.next trivial hs) rfl
      | file bytes =>
        have hs : (walks children).step w 0 =
            some ⟨w.pending.take 0 ++ w.pending.drop 1, w.files ++ [(p, bytes)]⟩ := by
          simp [walks, hget]
        exact ih _ (Walking.weight_step hs) (h.next trivial hs) rfl

end Walk

section Agreement

variable {children : List (String × FileTree)} {t : FileTree} {r : Except String String}

/-- The files, unless a link is among the leaves. -/
def filesOf (leaves : List (Path × Leaf)) : Option (List SourceFile) :=
  leaves.mapM fun l => l.2.map fun bytes => (l.1, bytes)

lemma filesOf_append (ls ms : List (Path × Leaf)) :
    filesOf (ls ++ ms) = (filesOf ls).bind fun found => (filesOf ms).map fun others => found ++ others := by
  have happend : filesOf (ls ++ ms) = do
      let found ← filesOf ls
      let others ← filesOf ms
      return found ++ others := List.mapM_append
  rw [happend]
  cases filesOf ls <;> cases filesOf ms <;> rfl

lemma filesOf_linkFree {ls : List (Path × Leaf)} (h : ∀ p, (p, none) ∉ ls) :
    filesOf ls = some (ls.filterMap fun l => l.2.map fun bytes => (l.1, bytes)) := by
  induction ls with
  | nil => rfl
  | cons l rest ih =>
    obtain ⟨p, leaf⟩ := l
    have hrest : ∀ p, (p, none) ∉ rest := fun p hp => h p (List.mem_cons_of_mem _ hp)
    cases leaf with
    | none => exact absurd List.mem_cons_self (h p)
    | some bytes =>
      have hfiles := ih hrest
      unfold filesOf at hfiles ⊢
      rw [List.mapM_cons, hfiles]
      rfl

lemma filesOf_link {ls : List (Path × Leaf)} {p : Path} (h : (p, none) ∈ ls) : filesOf ls = none := by
  obtain ⟨before, after, rfl⟩ := List.append_of_mem h
  have hnone : filesOf ((p, none) :: after) = none := by simp [filesOf]
  rw [filesOf_append, hnone]
  cases filesOf before <;> rfl

mutual

lemma visit_toOption (p : Path) : ∀ t, (visit p t).toOption = filesOf (located (p, t))
  | .file bytes => by
    have hone : located (p, .file bytes) = [(p, some bytes)] := by simp [located, leaves]
    rw [visit, hone]
    rfl
  | .link => by
    have hone : located (p, .link) = [(p, none)] := by simp [located, leaves]
    rw [visit, hone]
    rfl
  | .dir children => by
    rw [visit, walk_toOption p children]
    rfl

lemma walk_toOption (here : Path) : ∀ children, (walk here children).toOption =
    filesOf ((leavesBelow excluded children).map fun l => (here ++ l.1, l.2))
  | [] => rfl
  | (name, node) :: rest => by
    rw [walk, leavesBelow]
    split_ifs
    · exact walk_toOption here rest
    · rw [List.map_append, filesOf_append, ← walk_toOption here rest, List.map_map]
      have hnode := visit_toOption (here ++ [name]) node
      have hlocated : located (here ++ [name], node) = (node.leaves excluded).map
          ((fun l => (here ++ l.1, l.2)) ∘ fun l => (name :: l.1, l.2)) := by
        apply List.map_congr_left
        intro l _
        simp
      rw [← hlocated, ← hnode, toOption_bind]
      congr 1
      funext found
      rw [toOption_bind]
      cases (walk here rest).toOption <;> rfl

end

lemma contentHashDir_ok (h : Hashable t) : contentHashDir t = .ok (treeDigest (sourceFiles t)) := by
  cases t with
  | dir children =>
    have hfiles := walk_toOption [] children
    have hleaves : (leavesBelow excluded children).map (fun l => ([] ++ l.1, l.2)) =
        (FileTree.dir children).leaves excluded := by simp [leaves]
    rw [hleaves, filesOf_linkFree h] at hfiles
    cases hwalk : walk [] children with
    | error e =>
      rw [hwalk] at hfiles
      cases hfiles
    | ok files =>
      rw [hwalk] at hfiles
      cases hfiles
      rw [contentHashDir, hwalk]
      rfl
  | file bytes => cases h
  | link => cases h

lemma contentHashDir_error (h : ¬ Hashable t) : ∃ e, contentHashDir t = .error e := by
  cases t with
  | dir children =>
    have hlink : ∃ p, (p, none) ∈ (FileTree.dir children).leaves excluded := by
      simpa [Hashable, LinkFree] using h
    obtain ⟨p, hp⟩ := hlink
    have hfiles := walk_toOption [] children
    have hleaves : (leavesBelow excluded children).map (fun l => ([] ++ l.1, l.2)) =
        (FileTree.dir children).leaves excluded := by simp [leaves]
    rw [hleaves, filesOf_link hp] at hfiles
    cases hwalk : walk [] children with
    | error e => exact ⟨e, by rw [contentHashDir, hwalk]; rfl⟩
    | ok files =>
      rw [hwalk] at hfiles
      cases hfiles
  | file bytes => exact ⟨_, rfl⟩
  | link => exact ⟨_, rfl⟩

lemma mem_sourceFiles {f : SourceFile} :
    f ∈ sourceFiles t ↔ (f.1, some f.2) ∈ t.leaves excluded := by
  rw [sourceFiles, List.mem_filterMap]
  constructor
  · rintro ⟨⟨p, leaf⟩, hmem, hleaf⟩
    obtain ⟨bytes, rfl, rfl⟩ := Option.map_eq_some_iff.mp hleaf
    exact hmem
  · intro hmem
    exact ⟨_, hmem, rfl⟩

lemma nodup_sourceFiles (ht : t.WellFormed) : ((sourceFiles t).map Prod.fst).Nodup := by
  have hsub : ∀ ls : List (Path × Leaf),
      ((ls.filterMap fun l => l.2.map fun bytes => (l.1, bytes)).map Prod.fst).Sublist
        (ls.map Prod.fst) := by
    intro ls
    induction ls with
    | nil => exact .slnil
    | cons l rest ih =>
      obtain ⟨p, leaf⟩ := l
      cases leaf with
      | none => exact ih.cons p
      | some bytes => exact ih.cons_cons p
  exact (nodup_leaves ht).sublist (hsub _)

/-- What the paths of files are made of. -/
lemma names_of_mem_sourceFiles (ht : (FileTree.dir children).WellFormed) {f : SourceFile}
    (hf : f ∈ sourceFiles (.dir children)) :
    f.1 ≠ [] ∧ ∀ n ∈ f.1, IsName n ∧ excluded n = false := by
  have hmem := mem_sourceFiles.mp hf
  have hnames := names_of_mem_leaves ht hmem
  have hskip := ((mem_leaves ht).mp hmem).1
  refine ⟨?_, fun n hn => ⟨hnames n hn, hskip n hn⟩⟩
  intro hnil
  have hfind := ((mem_leaves ht).mp hmem).2
  rw [hnil] at hfind
  cases hfind

lemma nodup_keys (ht : (FileTree.dir children).WellFormed) :
    ((sourceFiles (.dir children)).map fun f => ofText (pathText f.1)).Nodup := by
  have hnodup := nodup_sourceFiles ht
  have hmap : (sourceFiles (.dir children)).map (fun f => ofText (pathText f.1)) =
      ((sourceFiles (.dir children)).map Prod.fst).map fun p => ofText (pathText p) := by
    rw [List.map_map]
    rfl
  rw [hmap]
  apply hnodup.map_on
  intro p hp q hq heq
  obtain ⟨f, hf, rfl⟩ := List.mem_map.mp hp
  obtain ⟨g, hg, rfl⟩ := List.mem_map.mp hq
  obtain ⟨hfne, hfnames⟩ := names_of_mem_sourceFiles ht hf
  obtain ⟨hgne, hgnames⟩ := names_of_mem_sourceFiles ht hg
  exact pathText_injective hfne hgne (fun n hn => (hfnames n hn).1.2.1)
    (fun n hn => (hgnames n hn).1.2.1) (ofText_injective heq)

/-- The order in which the files were found makes no difference. -/
lemma sorted_eq_of_perm {files files' : List SourceFile}
    (hnodup : (files.map fun f => ofText (pathText f.1)).Nodup) (h : files'.Perm files) :
    sorted files' = sorted files := by
  unfold sorted
  congr 1
  have hkeys : ∀ fs : List SourceFile, (fs.map fun f => (ofText (pathText f.1), f)).map Prod.fst =
      fs.map fun f => ofText (pathText f.1) := by
    intro fs
    rw [List.map_map]
    rfl
  apply (sortKeys_eq_iff _ _).mpr
  · intro m
    exact (h.map _).mem_iff
  · rw [hkeys]
    exact (h.map _).nodup_iff.mpr hnodup
  · rw [hkeys]
    exact hnodup

lemma files_of_covers {w : Walking} (h : w.Covers children) (hdone : w.pending = []) :
    w.files.Perm (sourceFiles (.dir children)) := by
  rw [Walking.Covers, hdone, List.flatMap_nil, List.nil_append] at h
  have hfiles := h.filterMap fun l => l.2.map fun bytes => (l.1, bytes)
  rw [List.filterMap_map] at hfiles
  have hid : w.files.filterMap ((fun l : Path × Leaf => l.2.map fun bytes => (l.1, bytes)) ∘
      fun f => (f.1, some f.2)) = w.files := List.filterMap_some
  rw [hid] at hfiles
  rw [sourceFiles, leaves]
  exact hfiles

lemma link_of_covers {w : Walking} {p : Path} (h : w.Covers children)
    (hlink : (p, FileTree.link) ∈ w.pending) : ¬ Hashable (.dir children) := by
  intro hfree
  have hmem : (p, none) ∈ w.pending.flatMap located :=
    List.mem_flatMap.mpr ⟨_, hlink, by simp [located, leaves]⟩
  have hleaf := h.subset (List.mem_append_left _ hmem)
  apply hfree p
  rw [leaves]
  exact hleaf

lemma ContentHashDirAsync.settles (t : FileTree) : ∃ r, ContentHashDirAsync t r := by
  cases t with
  | file bytes => exact ⟨_, .notDir fun _ => by simp⟩
  | link => exact ⟨_, .notDir fun _ => by simp⟩
  | dir children =>
    have hstart : (walks children).Reachable System.free ⟨tasks [] children, []⟩ := .start rfl
    obtain ⟨w, hw, hdone | ⟨p, hlink⟩⟩ := walk_ends hstart
    · exact ⟨_, .hashed hw hdone⟩
    · exact ⟨_, .refused hw hlink⟩

lemma ContentHashDirAsync.of_hashable (ht : t.WellFormed) (hhash : Hashable t)
    (h : ContentHashDirAsync t r) : r = contentHashDir t := by
  cases h with
  | hashed hw hdone =>
    have hperm := files_of_covers (reachable_covers hw) hdone
    rw [contentHashDir_ok hhash, treeDigest, treeDigest, sorted_eq_of_perm (nodup_keys ht) hperm]
  | refused hw hlink => exact absurd hhash (link_of_covers (reachable_covers hw) hlink)
  | notDir hdir =>
    cases t with
    | dir children => exact absurd rfl (hdir children)
    | file bytes => cases hhash
    | link => cases hhash

lemma ContentHashDirAsync.of_not_hashable (hhash : ¬ Hashable t) (h : ContentHashDirAsync t r) :
    ∃ e, r = .error e := by
  cases h with
  | hashed hw hdone =>
    have hcovers := reachable_covers hw
    rw [Walking.Covers, hdone, List.flatMap_nil, List.nil_append] at hcovers
    refine absurd (fun p hp => ?_) hhash
    rw [leaves] at hp
    obtain ⟨f, _, heq⟩ := List.mem_map.mp (hcovers.symm.subset hp)
    cases heq
  | refused hw hlink => exact ⟨_, rfl⟩
  | notDir hdir => exact ⟨_, rfl⟩

/-- One digest on a tree without links, whatever finishes first. -/
lemma contentHashDirAsync_iff (ht : t.WellFormed) (hhash : Hashable t) :
    ContentHashDirAsync t r ↔ r = contentHashDir t := by
  constructor
  · exact ContentHashDirAsync.of_hashable ht hhash
  · rintro rfl
    obtain ⟨r, hr⟩ := ContentHashDirAsync.settles t
    rwa [hr.of_hashable ht hhash] at hr

end Agreement

end VivimOmega.Host

import VivimOmega.Vault.Roundtrip
import VivimOmega.Library.FileTree

/-! Which targets the roundtrip takes to be disjoint from its source. -/

namespace VivimOmega.Vault

open Library Library.Json

section Texts

/-- An absolute and normalised path of a directory. -/
abbrev Directory := {d : List String // ∀ n ∈ d, FileTree.IsName n}

def directoryText (d : Directory) : String := "/" ++ FileTree.pathText d.1

lemma resolve_names {names : List String} (h : ∀ n ∈ names, FileTree.IsName n) (root : List String) :
    names.foldl (fun root part =>
      if part = "" ∨ part = "." then root else if part = ".." then root.dropLast else root ++ [part]) root =
        root ++ names := by
  induction names generalizing root with
  | nil => rw [List.foldl_nil, List.append_nil]
  | cons n names ih =>
    obtain ⟨⟨hempty, _, hdot, hdots⟩, hrest⟩ := List.forall_mem_cons.mp h
    rw [List.foldl_cons, if_neg (by simp [hempty, hdot]), if_neg hdots, ih hrest, List.append_assoc]
    rfl

lemma resolve_directoryText (d : Directory) : resolve (directoryText d) = d.1 := by
  have htext : (directoryText d).toList = '/' :: (FileTree.pathText d.1).toList := by
    rw [directoryText, String.toList_append]
    rfl
  have hparts : ((FileTree.pathText d.1).toList.splitOn '/').map String.ofList = if d.1 = [] then [""] else d.1 := by
    split_ifs with hnil
    · rw [hnil]
      rfl
    · rw [FileTree.splitOn_pathText hnil fun n hn => (d.2 n hn).2.1, List.map_map]
      simp
  have hsplit : ('/' :: (FileTree.pathText d.1).toList).splitOn '/' = [] :: (FileTree.pathText d.1).toList.splitOn '/' :=
    List.splitOn_append_cons_self_of_not_mem List.not_mem_nil _
  rw [resolve, htext, hsplit, List.map_cons, List.foldl_cons, if_pos (.inl rfl), hparts]
  split_ifs with hnil
  · rw [hnil]
    rfl
  · exact resolve_names d.2 []

end Texts

section Containment

variable {src dst : List String}

lemma startsWith_dots : Text.startsWith ".." ".." = true := by decide

/-- The text of the way there shows that one directory is in another, where it does not begin as a step up. -/
lemma inside_relative (src dst : List String) : inside (relative src dst) = true ↔
    dst = src ∨ ∃ name rest, dst = src ++ name :: rest ∧ Text.startsWith name ".." = false := by
  induction src generalizing dst with
  | nil =>
    have hsame : relative [] dst = dst := by cases dst <;> rfl
    rw [hsame]
    cases dst with
    | nil => simp [inside]
    | cons name rest => simp [inside]
  | cons a src ih =>
    cases dst with
    | nil =>
      have hup : relative (a :: src) [] = ".." :: (List.replicate src.length ".." ++ []) := rfl
      rw [hup, inside, startsWith_dots]
      simp
    | cons b dst =>
      rw [relative]
      split_ifs with hab
      · rw [ih, hab]
        simp
      · have hup : List.replicate (src.length + 1) ".." ++ b :: dst =
            ".." :: (List.replicate src.length ".." ++ b :: dst) := rfl
        rw [hup, inside, startsWith_dots]
        simp [Ne.symm hab]

def Refuses (src dst : Directory) : Prop :=
  ∃ e, requireTarget (resolve (directoryText src)) (.string (ofText (directoryText dst))) = .error e

lemma refuses_iff (src dst : Directory) :
    Refuses src dst ↔ inside (relative src.1 dst.1) = true ∨ inside (relative dst.1 src.1) = true := by
  have habsolute : Text.startsWith (directoryText dst) "/" = true := by
    rw [directoryText, Text.startsWith, List.isPrefixOf_iff_prefix, String.toList_append]
    exact List.prefix_append _ _
  rw [Refuses, requireTarget]
  simp only [toText_ofText, habsolute, if_true, resolve_directoryText]
  split_ifs with hinside
  · exact ⟨fun _ => hinside, fun _ => ⟨_, rfl⟩⟩
  · refine ⟨?_, fun h => absurd h hinside⟩
    rintro ⟨e, he⟩
    cases he

/-- One of them is the other, or lies inside it. -/
def Related (src dst : Directory) : Prop := src.1 <+: dst.1 ∨ dst.1 <+: src.1

/-- One lies inside the other, by a name that begins with two dots. -/
def Dotted (src dst : Directory) : Prop :=
  ∃ name rest, (dst.1 = src.1 ++ name :: rest ∨ src.1 = dst.1 ++ name :: rest) ∧ Text.startsWith name ".." = true

lemma not_inside_dotted {name : String} {rest : List String} (h : dst = src ++ name :: rest)
    (hdots : Text.startsWith name ".." = true) :
    ¬ (inside (relative src dst) = true ∨ inside (relative dst src) = true) := by
  rw [inside_relative, inside_relative, h]
  rintro ((heq | ⟨name', rest', heq, hplain⟩) | heq | ⟨name', rest', heq, _⟩)
  · simp at heq
  · obtain ⟨rfl, _⟩ := List.cons.inj (List.append_cancel_left heq)
    rw [hdots] at hplain
    cases hplain
  · simp at heq
  · have hlength := congrArg List.length heq
    simp at hlength

lemma inside_of_prefix (h : src <+: dst)
    (hplain : ∀ name rest, dst = src ++ name :: rest → Text.startsWith name ".." = false) :
    inside (relative src dst) = true := by
  obtain ⟨rest, rfl⟩ := h
  rw [inside_relative]
  cases rest with
  | nil => exact .inl (List.append_nil src)
  | cons name rest => exact .inr ⟨name, rest, rfl, hplain name rest rfl⟩

lemma prefix_of_inside (h : inside (relative src dst) = true) : src <+: dst := by
  obtain rfl | ⟨name, rest, rfl, _⟩ := (inside_relative src dst).mp h
  · exact List.prefix_rfl
  · exact List.prefix_append _ _

/-- A target is refused exactly where it is related to the source, as long as neither lies in the other by a name that
begins with two dots. -/
theorem roundtrip_disjoint_iff (src dst : Directory) : (Refuses src dst ↔ Related src dst) ↔ ¬ Dotted src dst := by
  rw [refuses_iff]
  constructor
  · rintro hiff ⟨name, rest, hdst | hsrc, hdots⟩
    · exact not_inside_dotted hdst hdots (hiff.mpr (.inl ⟨name :: rest, hdst.symm⟩))
    · exact not_inside_dotted hsrc hdots (hiff.mpr (.inr ⟨name :: rest, hsrc.symm⟩)).symm
  · intro hplain
    have hname : ∀ name rest, dst.1 = src.1 ++ name :: rest ∨ src.1 = dst.1 ++ name :: rest →
        Text.startsWith name ".." = false := fun name rest h =>
      Bool.eq_false_iff.mpr fun hdots => hplain ⟨name, rest, h, hdots⟩
    refine ⟨fun h => h.imp prefix_of_inside prefix_of_inside, fun h => h.imp ?_ ?_⟩
    · exact fun hpre => inside_of_prefix hpre fun name rest heq => hname name rest (.inl heq)
    · exact fun hpre => inside_of_prefix hpre fun name rest heq => hname name rest (.inr heq)

def vaultDirectory : Directory := ⟨["vault"], by decide⟩

def dottedDirectory : Directory := ⟨["vault", "..copy"], by decide⟩

/-- A directory inside the source is taken to be disjoint from it. -/
theorem dotted_accepted : ¬ ∀ src dst : Directory, Refuses src dst ↔ Related src dst := by
  intro h
  have hrefused := (h vaultDirectory dottedDirectory).mpr (.inl ⟨["..copy"], rfl⟩)
  exact not_inside_dotted (rfl : dottedDirectory.1 = vaultDirectory.1 ++ "..copy" :: []) (by decide)
    ((refuses_iff _ _).mp hrefused)

end Containment

end VivimOmega.Vault

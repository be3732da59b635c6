import VivimOmega.Library.Text

/-! Directory trees, the leaves that a walk with skipped names finds in them, and file systems as
what lies at a path. -/

namespace VivimOmega.Library

abbrev Path := List String

inductive FileTree
  | file (bytes : List UInt8)
  | dir (children : List (String × FileTree))
  | link

namespace FileTree

def IsName (n : String) : Prop := n ≠ "" ∧ '/' ∉ n.toList ∧ n ≠ "." ∧ n ≠ ".."

instance (n : String) : Decidable (IsName n) := inferInstanceAs (Decidable (_ ∧ _))

def pathText (p : Path) : String := "/".intercalate p

lemma toList_pathText (p : Path) : (pathText p).toList = ['/'].intercalate (p.map String.toList) :=
  String.toList_intercalate

lemma splitOn_pathText {p : Path} (hne : p ≠ []) (hp : ∀ n ∈ p, '/' ∉ n.toList) :
    (pathText p).toList.splitOn '/' = p.map String.toList := by
  rw [toList_pathText]
  apply List.splitOn_intercalate
  · intro l hl
    obtain ⟨n, hn, rfl⟩ := List.mem_map.mp hl
    exact hp n hn
  · simpa using hne

lemma pathText_injective {p q : Path} (hp : p ≠ []) (hq : q ≠ []) (hps : ∀ n ∈ p, '/' ∉ n.toList)
    (hqs : ∀ n ∈ q, '/' ∉ n.toList) (h : pathText p = pathText q) : p = q := by
  have hsplit := splitOn_pathText hp hps
  rw [h, splitOn_pathText hq hqs] at hsplit
  exact (List.map_injective_iff.mpr (fun _ _ => String.toList_injective) hsplit).symm

inductive WellFormed : FileTree → Prop
  | file (bytes : List UInt8) : WellFormed (file bytes)
  | dir {children : List (String × FileTree)} (hnames : ∀ c ∈ children, IsName c.1)
      (hkeys : (children.map Prod.fst).Nodup) (h : ∀ c ∈ children, WellFormed c.2) :
      WellFormed (dir children)
  | link : WellFormed link

/-- The bytes of a file, nothing for a link. -/
abbrev Leaf := Option (List UInt8)

mutual

def leaves (skip : String → Bool) : FileTree → List (Path × Leaf)
  | file bytes => [([], some bytes)]
  | dir children => leavesBelow skip children
  | link => [([], none)]

def leavesBelow (skip : String → Bool) : List (String × FileTree) → List (Path × Leaf)
  | [] => []
  | (n, t) :: rest =>
    if skip n then leavesBelow skip rest
    else (leaves skip t).map (fun l => (n :: l.1, l.2)) ++ leavesBelow skip rest

end

def leaf : FileTree → Option Leaf
  | file bytes => some (some bytes)
  | dir _ => none
  | link => some none

def child : FileTree → String → Option FileTree
  | dir children, n => (children.find? fun c => c.1 = n).map Prod.snd
  | _, _ => none

def find (t : FileTree) : Path → Option FileTree
  | [] => some t
  | n :: p => (t.child n).bind fun u => u.find p

variable {skip : String → Bool} {t u : FileTree} {p q : Path} {l : Leaf}

lemma mem_leavesBelow {children : List (String × FileTree)} :
    (p, l) ∈ leavesBelow skip children ↔
      ∃ c ∈ children, skip c.1 = false ∧ ∃ q, p = c.1 :: q ∧ (q, l) ∈ leaves skip c.2 := by
  induction children with
  | nil => simp [leavesBelow]
  | cons c rest ih =>
    obtain ⟨n, t⟩ := c
    have hsplit : ∀ P : String × FileTree → Prop,
        (∃ c ∈ (n, t) :: rest, P c) ↔ P (n, t) ∨ ∃ c ∈ rest, P c := fun P => by simp
    rw [leavesBelow, hsplit]
    cases hn : skip n with
    | true => simpa using ih
    | false =>
      rw [if_neg (by simp), List.mem_append, ih, List.mem_map]
      apply or_congr_left
      constructor
      · rintro ⟨⟨q, k⟩, hmem, heq⟩
        cases heq
        exact ⟨rfl, q, rfl, hmem⟩
      · rintro ⟨_, q, rfl, hmem⟩
        exact ⟨(q, l), hmem, rfl⟩

lemma child_eq_some {children : List (String × FileTree)} (hkeys : (children.map Prod.fst).Nodup)
    {n : String} : (dir children).child n = some u ↔ (n, u) ∈ children := by
  rw [child, Option.map_eq_some_iff]
  constructor
  · rintro ⟨c, hc, rfl⟩
    have hn : c.1 = n := by simpa using List.find?_some hc
    rw [← hn]
    exact List.mem_of_find?_eq_some hc
  · intro hmem
    cases hfind : children.find? fun c => c.1 = n with
    | none =>
      have hne := List.find?_eq_none.mp hfind _ hmem
      simp at hne
    | some c =>
      have hn : c.1 = n := by simpa using List.find?_some hfind
      have hsame := List.inj_on_of_nodup_map hkeys (List.mem_of_find?_eq_some hfind) hmem hn
      exact ⟨c, rfl, congrArg Prod.snd hsame⟩

/-- The leaves are what is found on ways without a skipped name. -/
lemma mem_leaves (ht : t.WellFormed) :
    (p, l) ∈ t.leaves skip ↔ (∀ n ∈ p, skip n = false) ∧ (t.find p).bind leaf = some l := by
  induction ht generalizing p with
  | file bytes =>
    rw [leaves, List.mem_singleton]
    cases p with
    | nil =>
      constructor
      · rintro ⟨⟩
        exact ⟨by simp, rfl⟩
      · rintro ⟨_, h⟩
        cases h
        rfl
    | cons n p => simp [find, child]
  | link =>
    rw [leaves, List.mem_singleton]
    cases p with
    | nil =>
      constructor
      · rintro ⟨⟩
        exact ⟨by simp, rfl⟩
      · rintro ⟨_, h⟩
        cases h
        rfl
    | cons n p => simp [find, child]
  | @dir children hnames hkeys h ih =>
    rw [leaves, mem_leavesBelow]
    cases p with
    | nil => simp [find, leaf]
    | cons n p =>
      constructor
      · rintro ⟨c, hc, hn, q, heq, hmem⟩
        cases heq
        obtain ⟨hskip, hfind⟩ := (ih c hc).mp hmem
        have hchild : (dir children).child c.1 = some c.2 := (child_eq_some hkeys).mpr hc
        refine ⟨List.forall_mem_cons.mpr ⟨hn, hskip⟩, ?_⟩
        rw [find, hchild]
        exact hfind
      · rintro ⟨hskip, hfind⟩
        obtain ⟨hn, hrest⟩ := List.forall_mem_cons.mp hskip
        rw [find] at hfind
        cases hchild : (dir children).child n with
        | none => rw [hchild] at hfind; cases hfind
        | some u =>
          rw [hchild] at hfind
          have hc := (child_eq_some hkeys).mp hchild
          exact ⟨(n, u), hc, hn, p, rfl, (ih _ hc).mpr ⟨hrest, hfind⟩⟩

lemma find_append (t : FileTree) (p q : Path) : t.find (p ++ q) = (t.find p).bind fun u => u.find q := by
  induction p generalizing t with
  | nil => rfl
  | cons n p ih =>
    rw [List.cons_append, find, find, Option.bind_assoc]
    congr 1
    funext u
    exact ih u

lemma find_leaf (h : u.leaf = some l) {q : Path} (hq : (u.find q).isSome = true) : q = [] := by
  cases q with
  | nil => rfl
  | cons n q => cases u <;> simp [find, child, leaf] at h hq

/-- No leaf lies below another. -/
lemma eq_of_below (ht : t.WellFormed) {k : Leaf} (hp : (p, l) ∈ t.leaves skip)
    (hq : (q, k) ∈ t.leaves skip) (h : p <+: q) : p = q ∧ l = k := by
  obtain ⟨r, rfl⟩ := h
  have hfind := ((mem_leaves ht).mp hp).2
  have hfind' := ((mem_leaves ht).mp hq).2
  obtain ⟨u, hu, hleaf⟩ := Option.bind_eq_some_iff.mp hfind
  rw [find_append, hu, Option.bind_some] at hfind'
  obtain ⟨v, hv, hleaf'⟩ := Option.bind_eq_some_iff.mp hfind'
  obtain rfl := find_leaf hleaf (by rw [hv]; rfl)
  cases hv
  rw [hleaf] at hleaf'
  exact ⟨(List.append_nil p).symm, Option.some.inj hleaf'⟩

lemma nodup_leavesBelow {children : List (String × FileTree)}
    (hkeys : (children.map Prod.fst).Nodup)
    (h : ∀ c ∈ children, ((leaves skip c.2).map Prod.fst).Nodup) :
    ((leavesBelow skip children).map Prod.fst).Nodup := by
  induction children with
  | nil => exact List.nodup_nil
  | cons c rest ih =>
    obtain ⟨n, t⟩ := c
    obtain ⟨hn, hkeys⟩ := List.nodup_cons.mp hkeys
    obtain ⟨ht, hrest⟩ := List.forall_mem_cons.mp h
    rw [leavesBelow]
    split_ifs
    · exact ih hkeys hrest
    · rw [List.map_append, List.map_map, List.nodup_append]
      have hcons : Prod.fst ∘ (fun l : Path × Leaf => (n :: l.1, l.2)) = (n :: ·) ∘ Prod.fst := rfl
      refine ⟨?_, ih hkeys hrest, ?_⟩
      · rw [hcons, ← List.map_map]
        exact List.Nodup.map (List.cons_injective) ht
      · rintro p hp q hq rfl
        obtain ⟨⟨r, _⟩, _, rfl⟩ := List.mem_map.mp hp
        obtain ⟨⟨s, k⟩, hmem, heq⟩ := List.mem_map.mp hq
        obtain ⟨c, hc, _, _, hway, _⟩ := mem_leavesBelow.mp hmem
        have hhead : c.1 = n := (List.cons.inj (hway.symm.trans heq)).1
        have hmem := List.mem_map_of_mem (f := Prod.fst) hc
        rw [hhead] at hmem
        exact hn hmem

lemma nodup_leaves (ht : t.WellFormed) : ((t.leaves skip).map Prod.fst).Nodup := by
  induction ht with
  | file bytes => simp [leaves]
  | link => simp [leaves]
  | dir hnames hkeys h ih => exact nodup_leavesBelow hkeys ih

lemma WellFormed.child (ht : t.WellFormed) {n : String} (h : t.child n = some u) :
    u.WellFormed ∧ IsName n := by
  cases ht with
  | dir hnames hkeys hall =>
    have hmem := (child_eq_some hkeys).mp h
    exact ⟨hall _ hmem, hnames _ hmem⟩
  | file bytes => cases h
  | link => cases h

lemma WellFormed.find (ht : t.WellFormed) (h : t.find p = some u) :
    u.WellFormed ∧ ∀ n ∈ p, IsName n := by
  induction p generalizing t with
  | nil =>
    cases h
    exact ⟨ht, by simp⟩
  | cons n p ih =>
    obtain ⟨v, hv, hrest⟩ := Option.bind_eq_some_iff.mp h
    obtain ⟨hwell, hname⟩ := ht.child hv
    obtain ⟨hu, hnames⟩ := ih hwell hrest
    exact ⟨hu, List.forall_mem_cons.mpr ⟨hname, hnames⟩⟩

lemma names_of_mem_leaves (ht : t.WellFormed) (h : (p, l) ∈ t.leaves skip) : ∀ n ∈ p, IsName n := by
  obtain ⟨u, hu, _⟩ := Option.bind_eq_some_iff.mp ((mem_leaves ht).mp h).2
  exact (ht.find hu).2

end FileTree

/-- The path that a text leads to from a base, with `.` and `..` resolved. -/
def join (base : Path) (text : String) : Path :=
  ((text.toList.splitOn '/').map String.ofList).foldl (fun here part =>
    if part = "" ∨ part = "." then here else if part = ".." then here.dropLast else here ++ [part]) base

def resolve (base : Path) (text : String) : Path :=
  if Text.startsWith text "/" then join [] text else join base text

/-- What lies at a path when links are followed. -/
structure FileSystem where
  stat : Path → Option FileTree
  followed : ∀ p t, stat p = some t → t.WellFormed ∧ t ≠ .link
  below : ∀ p t n u, stat p = some t → t.child n = some u → u ≠ .link → stat (p ++ [n]) = some u
  absent : ∀ p t n q, stat p = some t → t.child n = none → stat (p ++ n :: q) = none

namespace FileSystem

open FileTree

/-- The file system of a tree whose links lead nowhere. -/
def ofTree (root : FileTree) (hroot : root.WellFormed) : FileSystem where
  stat p := (root.find p).filter fun
    | .link => false
    | _ => true
  followed p t h := by
    obtain ⟨hfind, hnot⟩ := Option.filter_eq_some_iff.mp h
    refine ⟨(hroot.find hfind).1, ?_⟩
    rintro rfl
    cases hnot
  below p t n u h hchild hu := by
    obtain ⟨hfind, _⟩ := Option.filter_eq_some_iff.mp h
    refine Option.filter_eq_some_iff.mpr ⟨?_, ?_⟩
    · rw [find_append, hfind, Option.bind_some, find, hchild]
      rfl
    · cases u with
      | link => exact absurd rfl hu
      | _ => rfl
  absent p t n q h hchild := by
    obtain ⟨hfind, _⟩ := Option.filter_eq_some_iff.mp h
    rw [find_append, hfind, Option.bind_some, find, hchild]
    rfl

variable (fs : FileSystem)

/-- The bytes of the file at a path. -/
def readFile (p : Path) : Option (List UInt8) :=
  match fs.stat p with
  | some (.file bytes) => some bytes
  | _ => none

/-- Where no link is met, what lies down from a path is found in its tree. -/
lemma find_of_stat {skip : String → Bool} {p q : Path} {t u : FileTree} (ht : fs.stat p = some t)
    (hu : fs.stat (p ++ q) = some u) (hskip : ∀ n ∈ q, skip n = false)
    (hlinks : ∀ r, (r, none) ∉ t.leaves skip) : t.find q = some u := by
  induction q generalizing p t with
  | nil =>
    rw [List.append_nil, ht] at hu
    exact hu
  | cons n q ih =>
    obtain ⟨hn, hrest⟩ := List.forall_mem_cons.mp hskip
    have hwell := (fs.followed p t ht).1
    cases hchild : t.child n with
    | none =>
      rw [fs.absent p t n q ht hchild] at hu
      cases hu
    | some v =>
      have hclean : ∀ r, (r, none) ∉ v.leaves skip := by
        intro r hr
        have hv := (hwell.child hchild).1
        obtain ⟨hnames, hfind⟩ := (mem_leaves hv).mp hr
        refine hlinks (n :: r) ((mem_leaves hwell).mpr ⟨List.forall_mem_cons.mpr ⟨hn, hnames⟩, ?_⟩)
        rw [find, hchild]
        exact hfind
      have hnot : v ≠ .link := by
        rintro rfl
        exact hclean [] (by simp [leaves])
      have happend : p ++ n :: q = (p ++ [n]) ++ q := by simp
      rw [happend] at hu
      rw [find, hchild]
      exact ih (fs.below p t n v ht hchild hnot) hu hrest hclean

end FileSystem

end VivimOmega.Library

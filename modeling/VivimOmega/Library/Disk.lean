import VivimOmega.Library.FileTree
import VivimOmega.Library.OrderedMap

/-! Files and directories that are written, as what lies at each path. -/

namespace VivimOmega.Library

inductive Entry
  | file (bytes : List UInt8)
  | dir
  deriving DecidableEq

abbrev Disk := OrderedMap Path Entry

namespace Disk

def isFile (d : Disk) (p : Path) : Bool :=
  match d.get? p with
  | some (.file _) => true
  | _ => false

/-- What is missing on the way to a directory, and the directory. -/
def missing (d : Disk) (p : Path) : List Path := p.inits.filter fun q => !d.has q

def mkdirAll (d : Disk) (p : Path) : Except String Disk :=
  if p.inits.any d.isFile then .error "EEXIST: file already exists, mkdir"
  else .ok ((d.missing p).foldl (fun d q => d.set q .dir) d)

def writeFile (d : Disk) (p : Path) (bytes : List UInt8) : Except String Disk :=
  if d.get? p = some .dir then .error "EISDIR: illegal operation on a directory, open"
  else if p ≠ [] ∧ d.get? p.dropLast = some .dir then .ok (d.set p (.file bytes))
  else .error "ENOENT: no such file or directory, open"

def children (d : Disk) (p : Path) : List Path := d.keys.filter fun q => q ≠ [] ∧ q.dropLast = p

variable {d e : Disk} {p q : Path} {bytes : List UInt8}

lemma get?_foldl (d : Disk) (ps : List Path) (q : Path) :
    (ps.foldl (fun d q => d.set q .dir) d).get? q = if q ∈ ps then some .dir else d.get? q := by
  induction ps generalizing d with
  | nil => rw [if_neg List.not_mem_nil]; rfl
  | cons p ps ih =>
    rw [List.foldl_cons, ih]
    by_cases hq : q ∈ ps
    · rw [if_pos hq, if_pos (List.mem_cons_of_mem _ hq)]
    · rw [if_neg hq]
      by_cases hp : q = p
      · rw [hp, OrderedMap.get?_set_self, if_pos List.mem_cons_self]
      · rw [OrderedMap.get?_set_of_ne _ _ hp, if_neg (List.not_mem_cons_of_ne_of_not_mem hp hq)]

lemma mem_missing : q ∈ d.missing p ↔ q <+: p ∧ d.get? q = none := by
  rw [missing, List.mem_filter, List.mem_inits, Bool.not_eq_true', OrderedMap.has_eq_false]

lemma get?_mkdirAll (h : d.mkdirAll p = .ok e) (q : Path) :
    e.get? q = if q ∈ d.missing p then some .dir else d.get? q := by
  unfold mkdirAll at h
  split_ifs at h
  cases h
  exact get?_foldl _ _ _

lemma get?_mkdirAll_of_some {x : Entry} (h : d.mkdirAll p = .ok e) (hq : d.get? q = some x) : e.get? q = some x := by
  rw [get?_mkdirAll h, if_neg, hq]
  intro hmem
  rw [(mem_missing.mp hmem).2] at hq
  cases hq

lemma get?_writeFile (h : d.writeFile p bytes = .ok e) (q : Path) :
    e.get? q = if q = p then some (.file bytes) else d.get? q := by
  unfold writeFile at h
  split_ifs at h
  cases h
  rw [OrderedMap.get?_set]

end Disk

end VivimOmega.Library

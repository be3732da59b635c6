import VivimOmega.Library.FileTree
import VivimOmega.Library.OrderedMap

/-! What the daemon runs, and when a `use` makes it boot something else. -/

namespace VivimOmega.Daemon

open Library

structure FileStat where
  mtimeMs : ℕ
  size : ℕ
  deriving DecidableEq

abbrev SourceSnapshot := OrderedMap Path FileStat

def sameSnapshot (a b : SourceSnapshot) : Bool :=
  a.keys.length = b.keys.length && a.keys.all fun k => (a.get? k).isSome && a.get? k = b.get? k

/-- What `bootFromSpec` and `bootFromRecipe` come back with. -/
structure Booted (Host : Type) where
  host : Host
  recipeSha : String
  snapshot : SourceSnapshot
  specDir : Path

structure Running (Host : Type) where
  host : Host
  specPath : Option Path
  recipeSha : String
  snapshot : SourceSnapshot
  specDir : Path
  callsServed : ℕ

inductive Target
  | recipe (path : Path)
  | spec (path : Path)
  deriving DecidableEq

/-- What is read before a boot is decided on: the digest of a recipe file, and the snapshot of the sources that a
spec file names. -/
structure Sight where
  recipeSha : Path → Except String String
  snapshot : Path → Except String SourceSnapshot

/-- `DEFAULT_COMPOSITION`, and the working directory that an empty path resolves to. -/
structure Setting where
  defaultComposition : Path
  cwd : Path

variable {Host : Type}

/-- `ensureCurrent` up to the boot: what it boots, if anything. -/
def Running.wants (running : Running Host) (setting : Setting) (sight : Sight) (specPath recipePath : Option Path) :
    Except String (Option Target) :=
  match recipePath with
  | some path => do
    let want ← sight.recipeSha path
    return if want = running.recipeSha then none else some (.recipe path)
  | none =>
    let wantSpec := specPath.getD (running.specPath.getD setting.defaultComposition)
    if wantSpec ≠ running.specPath.getD setting.cwd ∨ running.snapshot.keys.length = 0 then return some (.spec wantSpec)
    else do
      let fresh ← sight.snapshot wantSpec
      return if sameSnapshot running.snapshot fresh then none else some (.spec wantSpec)

/-- `ensureCurrent` after the boot and the shutdown of the host before. -/
def Running.replaceBy (running : Running Host) (target : Target) (next : Booted Host) : Running Host :=
  { running with
    host := next.host
    specPath := match target with
      | .recipe _ => none
      | .spec path => some path
    recipeSha := next.recipeSha
    snapshot := next.snapshot
    specDir := next.specDir }

/-- What `running` says, but for the count of the calls. -/
def Running.Serves (running other : Running Host) : Prop :=
  { running with callsServed := other.callsServed } = other

lemma Running.Serves.refl (running : Running Host) : running.Serves running := rfl

lemma Running.Serves.host_eq {running other : Running Host} (h : running.Serves other) : running.host = other.host := by
  rw [← h]

lemma Running.Serves.count {running other : Running Host} (h : running.Serves other) (n : ℕ) :
    running.Serves { other with callsServed := n } := by
  rw [← h]
  rfl

end VivimOmega.Daemon

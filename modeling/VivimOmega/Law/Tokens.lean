import VivimOmega.Law.Forbidden
import VivimOmega.Library.Capability

/-! The algebra of scopes: how one is read, and when it is part of another. -/

namespace VivimOmega.Law

open Library Library.Json

section Grammar

def colon : UInt16 := 0x3A

def dot : UInt16 := 0x2E

def equalsSign : UInt16 := 0x3D

def isWordUnit (u : UInt16) : Bool :=
  (0x30 ≤ u && u ≤ 0x39) || (0x41 ≤ u && u ≤ 0x5A) || (0x61 ≤ u && u ≤ 0x7A) || u = 0x5F || u = 0x2D

/-- What `\s` matches. -/
def isSpaceUnit (u : UInt16) : Bool :=
  (0x9 ≤ u && u ≤ 0xD) || u = 0x20 || u = 0xA0 || u = 0x1680 || (0x2000 ≤ u && u ≤ 0x200A) || u = 0x2028 ||
    u = 0x2029 || u = 0x202F || u = 0x205F || u = 0x3000 || u = 0xFEFF

/-- `SEGMENT_RE` -/
def isSegment (s : JsString) : Bool := s ≠ [] && s.all isWordUnit

/-- `CONSTRAINT_RE`: a key and a value on the two sides of the only `=`. -/
def isConstraint (s : JsString) : Bool :=
  match s.splitOn equalsSign with
  | [key, value] => isSegment key && (value ≠ [] && value.all fun u => !isSpaceUnit u && u ≠ colon)
  | _ => false

abbrev ParsedScope := Capability JsString

def parseScope (scope : JsString) : Except String ParsedScope := do
  require (scope ≠ [] && scope.length ≤ 512) ("tokens: malformed scope '" ++ toText scope ++ "'")
  let parts := scope.splitOn colon
  let path := (parts.headD []).splitOn dot
  require (path.all isSegment) ("tokens: malformed scope path in '" ++ toText scope ++ "'")
  let constraints := normalize parts.tail
  match constraints.find? fun c => !isConstraint c with
  | some c => throw ("tokens: malformed constraint '" ++ toText c ++ "' in '" ++ toText scope ++ "'")
  | none => return ⟨path, constraints⟩

def pathPrefixOf (a b : List JsString) : Bool := b.isPrefixOf a

def isSubset (a b : JsString) : Except String Bool := do
  let pa ← parseScope a
  let pb ← parseScope b
  return pathPrefixOf pa.path pb.path && pb.clauses.all fun c => c ∈ pa.clauses

structure Cap where
  scope : JsString
  generation : ℕ
  parent : Option JsString

def mintCap (scope : JsString) (generation : ℕ) : Except String Cap := do
  let _ ← parseScope scope
  return ⟨scope, generation, none⟩

def attenuate (parent : Cap) (subset : JsString) : Except String Cap := do
  let narrower ← isSubset subset parent.scope
  require narrower ("tokens: attenuation violation — '" ++ toText subset ++ "' is not a subset of '" ++
    toText parent.scope ++ "'")
  return ⟨subset, parent.generation, if parent.scope = subset then none else some parent.scope⟩

def canonicalScope (scope : JsString) : Except String JsString := do
  let parsed ← parseScope scope
  return [colon].intercalate ([dot].intercalate parsed.path :: parsed.clauses)

end Grammar

section Order

variable {a b c : JsString} {pa : ParsedScope}

/-- `isSubset` is the order of what the two scopes say. -/
lemma isSubset_iff : isSubset a b = .ok true ↔ ∃ pa pb, parseScope a = .ok pa ∧ parseScope b = .ok pb ∧ pa ≤ pb := by
  have hle : ∀ pa pb : ParsedScope, (pathPrefixOf pa.path pb.path && pb.clauses.all fun c => c ∈ pa.clauses) = true ↔
      pa ≤ pb := by
    intro pa pb
    simp [pathPrefixOf, Capability.le_iff, List.subset_def]
  constructor
  · intro h
    obtain ⟨pa, ha, h⟩ := bind_eq_ok h
    obtain ⟨pb, hb, h⟩ := bind_eq_ok h
    exact ⟨pa, pb, ha, hb, (hle pa pb).mp (Except.ok.inj h)⟩
  · rintro ⟨pa, pb, ha, hb, h⟩
    rw [isSubset, ha, ok_bind, hb, ok_bind, (hle pa pb).mpr h]
    rfl

lemma isSubset_trans (hab : isSubset a b = .ok true) (hbc : isSubset b c = .ok true) : isSubset a c = .ok true := by
  obtain ⟨pa, pb, ha, hb, hle⟩ := isSubset_iff.mp hab
  obtain ⟨pb', pc, hb', hc, hle'⟩ := isSubset_iff.mp hbc
  obtain rfl : pb = pb' := Except.ok.inj (hb.symm.trans hb')
  exact isSubset_iff.mpr ⟨pa, pc, ha, hc, hle.trans hle'⟩

/-- What a scope that is read consists of. -/
lemma parseScope_ok (h : parseScope a = .ok pa) : a.length ≤ 512 ∧
    pa.path = ((a.splitOn colon).headD []).splitOn dot ∧ pa.clauses = normalize (a.splitOn colon).tail ∧
      (∀ s ∈ pa.path, isSegment s = true) ∧ ∀ c ∈ pa.clauses, isConstraint c = true := by
  obtain ⟨_, hlength, h⟩ := bind_eq_ok h
  obtain ⟨_, hpath, h⟩ := bind_eq_ok h
  have hsize := require_ok hlength
  have hsegments := List.all_eq_true.mp (require_ok hpath)
  dsimp only at h
  split at h
  · cases h
  · next hnone =>
    cases h
    refine ⟨by simpa using (Bool.and_eq_true_iff.mp hsize).2, rfl, rfl, hsegments, fun c hc => ?_⟩
    simpa using List.find?_eq_none.mp hnone c hc

end Order

end VivimOmega.Law

import VivimOmega.Library.Json.Canonical

/-! The mapping of a blueprint's ops to the candidates that were inferred for them. -/

namespace VivimOmega.Mapping

open Library Library.Json

section Model

inductive RiskClass
  | externalMutation | mutation | read
  deriving DecidableEq

def RiskClass.text : RiskClass → JsString
  | .externalMutation => ofText "EXTERNAL_MUTATION"
  | .mutation => ofText "MUTATION"
  | .read => ofText "READ"

structure BlueprintOp where
  op : JsString
  risk : RiskClass
  deriving DecidableEq

structure Blueprint where
  ops : List BlueprintOp
  source : JsString

structure EvidenceRef where
  ns : JsString
  id : JsString
  rev : ℕ
  deriving DecidableEq

structure CandidateLike where
  id : JsString
  op : JsString
  selector : JsString
  riskHint : JsString
  evidence : Option (List EvidenceRef)
  confidence : Option ℚ
  deriving DecidableEq

structure Binding where
  blueprintOp : JsString
  candidateId : JsString
  selector : JsString
  riskHint : JsString
  confidence : Option ℚ
  evidenceCount : ℕ
  alternatives : List JsString
  deriving DecidableEq

structure MappingGap where
  missingOp : JsString
  reason : JsString
  deriving DecidableEq

structure SurplusEntry where
  candidateId : JsString
  op : JsString
  reason : JsString
  deriving DecidableEq

structure Stats where
  blueprintOps : ℕ
  candidates : ℕ
  bound : ℕ
  gaps : ℕ
  surplus : ℕ
  deriving DecidableEq

structure MappingReport where
  satisfied : Bool
  bindings : List Binding
  gaps : List MappingGap
  surplus : List SurplusEntry
  stats : Stats
  blueprintSource : JsString
  deriving DecidableEq

end Model

section Solver

def atSign : UInt16 := 64

/-- The op without its version. -/
def baseOp (op : JsString) : JsString :=
  let upToSign := op.rdropWhile (· ≠ atSign)
  if 1 < upToSign.length then upToSign.dropLast else op

def evidenceCount (c : CandidateLike) : ℕ := (c.evidence.map List.length).getD 0

def rankOf (c : CandidateLike) : ℚ := c.confidence.getD (-1)

/-- What the comparator of candidates does not sort the other way. -/
def NotAfter (a b : CandidateLike) : Prop :=
  rankOf b < rankOf a ∨ rankOf a = rankOf b ∧
    (evidenceCount b < evidenceCount a ∨ evidenceCount a = evidenceCount b ∧ keyLe a.id b.id)

instance instDecidableNotAfter (a b : CandidateLike) : Decidable (NotAfter a b) := by
  unfold NotAfter
  infer_instance

def pickBest (pool : List CandidateLike) : Option CandidateLike := (pool.insertionSort NotAfter).head?

def joinWith (separator : String) (parts : List JsString) : JsString := (ofText separator).intercalate parts

def inferredOps (candidates : List CandidateLike) : JsString :=
  let ops := (sortKeys ((candidates.map CandidateLike.op).dedup.map fun op => (op, ()))).map Prod.fst
  let joined := joinWith ", " ops
  if joined = [] then ofText "(none)" else joined

def Eligible (bp : BlueprintOp) (c : CandidateLike) : Prop := c.selector ≠ [] ∧ c.riskHint = bp.risk.text

instance instDecidableEligible (bp : BlueprintOp) (c : CandidateLike) : Decidable (Eligible bp c) := by
  unfold Eligible
  infer_instance

def noCandidate (want inferred : JsString) : JsString :=
  ofText "no candidate with op " ++ want ++ ofText " (inferred ops: " ++ inferred ++ ofText ")"

def whyNot (bp : BlueprintOp) (c : CandidateLike) : JsString :=
  if c.selector = [] then c.id ++ ofText ": empty selector"
  else c.id ++ ofText ": risk mismatch (" ++ c.riskHint ++ ofText " != " ++ bp.risk.text ++ ofText ")"

def noneEligible (reasons : List JsString) : JsString :=
  ofText "op match exists but none eligible — " ++ joinWith "; " reasons

/-- What becomes of one op: a binding to the best of the eligible candidates, or a gap. -/
def bindOp (candidates : List CandidateLike) (bp : BlueprintOp) : Except MappingGap Binding :=
  let want := baseOp bp.op
  let opMatches := candidates.filter fun c => c.op = want
  if opMatches = [] then throw ⟨bp.op, noCandidate want (inferredOps candidates)⟩
  else
    let eligible := opMatches.filter (Eligible bp ·)
    match pickBest eligible with
    | none => throw ⟨bp.op, noneEligible (opMatches.map (whyNot bp))⟩
    | some best => return {
        blueprintOp := bp.op
        candidateId := best.id
        selector := best.selector
        riskHint := best.riskHint
        confidence := best.confidence
        evidenceCount := evidenceCount best
        alternatives := (eligible.filter fun c => c.id ≠ best.id).map CandidateLike.id }

def gapOf : Except MappingGap Binding → Option MappingGap
  | .error gap => some gap
  | .ok _ => none

def notSelected (op : JsString) : JsString := ofText "alternative not selected for " ++ op ++
  ofText " (bound elsewhere; lower rank by tie-break: confidence desc, evidence desc, id asc)"

def ineligible (op : JsString) : JsString := ofText "op " ++ op ++
  ofText " is required by the blueprint but this candidate was ineligible (empty selector or risk mismatch)"

def notRequired (op : JsString) : JsString :=
  ofText "op " ++ op ++ ofText " is not required by the blueprint (supply without demand)"

/-- Why a candidate is left over, where the ops are looked up by the candidates that are bound to them. -/
def surplusReason (ops : List BlueprintOp) (bindings : List Binding) (c : CandidateLike) : JsString :=
  match (bindings.reverse.find? fun b => b.candidateId = c.id).filter (·.blueprintOp ≠ []) with
  | some b => notSelected b.blueprintOp
  | none => if ops.any fun bp => baseOp bp.op = c.op then ineligible c.op else notRequired c.op

def solveMapping (candidates : List CandidateLike) (blueprint : Blueprint) : MappingReport :=
  let outcomes := blueprint.ops.map (bindOp candidates)
  let bindings := outcomes.filterMap Except.toOption
  let gaps := outcomes.filterMap gapOf
  let left := candidates.filter fun c => c.id ∉ bindings.map Binding.candidateId
  let surplus := left.map fun c => ⟨c.id, c.op, surplusReason blueprint.ops bindings c⟩
  { satisfied := gaps.isEmpty
    bindings
    gaps
    surplus
    stats := ⟨blueprint.ops.length, candidates.length, bindings.length, gaps.length, surplus.length⟩
    blueprintSource := blueprint.source }

end Solver

end VivimOmega.Mapping

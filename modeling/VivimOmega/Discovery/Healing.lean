import VivimOmega.Discovery.Promotion
import VivimOmega.Library.Json.Value

/-! The healing decision: drift, rediscovery, probation. -/

namespace VivimOmega.Discovery

open Library Library.Json

structure SurfaceContract where
  op : Option JsString
  selector : Option JsString
  actionType : Option JsString
  riskHint : Option JsString
  evidence : Value
  status : Option JsString
  outcomeRates : Option (List (JsString × ℚ))
  id : Option JsString
  candidateId : Option JsString
  address : Option EvidenceRef

structure FreshObservation where
  selector : Option JsString
  actionType : Option JsString
  riskHint : Option JsString
  outcomeRates : Option (List (JsString × ℚ))

structure ProbeResult where
  candidateId : Option JsString
  passed : Bool

structure HealingPolicy where
  policyId : JsString
  driftThreshold : ℚ
  probationProbes : ℕ
  promotionThreshold : ℚ
  drift_pos : 0 < driftThreshold
  drift_le : driftThreshold ≤ 1
  probes_pos : 1 ≤ probationProbes
  promotion_pos : 0 < promotionThreshold
  promotion_le : promotionThreshold ≤ 1

section Drift

inductive Axis
  | selector | actionType | riskHint | outcomeRates

structure DriftAxisReport where
  axis : Axis
  compared : Bool
  diff : ℚ

structure DriftReport where
  score : ℚ
  axes : List DriftAxisReport

def grams (s : JsString) : List (UInt16 × UInt16) := s.zip s.tail

/-- Dice's similarity of bigrams. -/
def bigramDice (a b : JsString) : ℚ :=
  if grams a = [] ∨ grams b = [] then 0
  else double (2 * ((grams b).bagInter (grams a)).length / ((grams a).length + (grams b).length))

def stringAxis (axis : Axis) (a b : Option JsString) (graded : Bool) : DriftAxisReport :=
  match a, b with
  | some a, some b =>
    if a = [] ∨ b = [] then ⟨axis, false, 0⟩
    else if a = b then ⟨axis, true, 0⟩
    else ⟨axis, true, if graded then double (1 - bigramDice a b) else 1⟩
  | _, _ => ⟨axis, false, 0⟩

def rate (rates : List (JsString × ℚ)) (k : JsString) : ℚ := (rates.lookup k).getD 0

def ratesAxis (a b : Option (List (JsString × ℚ))) : DriftAxisReport :=
  match a, b with
  | some a, some b =>
    if a = [] then ⟨.outcomeRates, false, 0⟩
    else
      let keys := (a.map Prod.fst ++ b.map Prod.fst).eraseDups.insertionSort fun x y => x ≤ y
      let l1 := keys.foldl (fun l1 k => double (l1 + |double (rate a k - rate b k)|)) 0
      ⟨.outcomeRates, true, min 1 (double (l1 / 2))⟩
  | _, _ => ⟨.outcomeRates, false, 0⟩

/-- The worst divergence of the axes that both sides supply. -/
def computeDrift (contract : SurfaceContract) (observation : FreshObservation) : DriftReport :=
  let axes := [stringAxis .selector contract.selector observation.selector true,
    stringAxis .actionType contract.actionType observation.actionType false,
    stringAxis .riskHint contract.riskHint observation.riskHint false,
    ratesAxis contract.outcomeRates observation.outcomeRates]
  ⟨((axes.filter DriftAxisReport.compared).map DriftAxisReport.diff).foldr max 0, axes⟩

end Drift

section Rediscovery

/-- How many evidence items a candidate cites. -/
def evidenceCited (candidate : SurfaceContract) : ℕ :=
  match candidate.evidence with
  | .array items => items.length
  | .string s => if s.length > 0 then 1 else 0
  | .object members => members.length
  | _ => 0

inductive Inadmissible
  | noCandidate
  | citesNothing
  | otherOp (candidate contract : JsString)
  | otherSelector (candidate observation : JsString)

structure Admitted where
  candidateId : Option JsString
  cited : ℕ

def SurfaceContract.identity (candidate : SurfaceContract) : Option JsString := candidate.id.or candidate.candidateId

/-- Two texts that are both there and not the same. -/
def clash (a b : Option JsString) : Option (JsString × JsString) :=
  match a, b with
  | some a, some b => if a ≠ b then some (a, b) else none
  | _, _ => none

def validateCandidate (candidate : Option SurfaceContract) (contract : SurfaceContract)
    (observation : FreshObservation) : Except Inadmissible Admitted :=
  match candidate with
  | none => .error .noCandidate
  | some candidate =>
    if evidenceCited candidate = 0 then .error .citesNothing
    else match clash candidate.op contract.op with
      | some (c, d) => .error (.otherOp c d)
      | none =>
        match clash (candidate.selector.filter (· ≠ [])) (observation.selector.filter (· ≠ [])) with
        | some (c, o) => .error (.otherSelector c o)
        | none => .ok ⟨candidate.identity, evidenceCited candidate⟩

end Rediscovery

section Probation

structure ProbationReport where
  passed : ℕ
  total : ℕ
  required : ℕ
  score : ℚ
  threshold : ℚ
  excluded : ℕ

/-- A probe of another candidate. -/
def foreign (candidateId : Option JsString) (p : ProbeResult) : Bool :=
  (clash candidateId (p.candidateId.filter (· ≠ []))).isSome

def evaluateProbation (probes : List ProbeResult) (candidateId : Option JsString) (policy : HealingPolicy) :
    ProbationReport :=
  let admissible := probes.filter fun p => !foreign candidateId p
  let passed := admissible.filter ProbeResult.passed
  { passed := passed.length
    total := admissible.length
    required := policy.probationProbes
    score := score passed.length admissible.length
    threshold := policy.promotionThreshold
    excluded := (probes.filter (foreign candidateId)).length }

end Probation

inductive HealingAction
  | none | reject | holdInProbation | promote
  deriving DecidableEq

structure HealInput where
  contractEvidence : SurfaceContract
  freshObservation : FreshObservation
  candidate : Option SurfaceContract
  probes : List ProbeResult

structure GapReport where
  scoreGap : ℚ
  probesNeeded : ℕ

structure HealingDecision where
  action : HealingAction
  refusal : Option Inadmissible
  drift : DriftReport
  probation : Option ProbationReport
  gap : Option GapReport
  eventId : JsString
  eventRefs : List EvidenceRef

def planHealing (input : HealInput) (policy : HealingPolicy) (now : Number) : HealingDecision :=
  let drift := computeDrift input.contractEvidence input.freshObservation
  let decide (action : HealingAction) (refusal : Option Inadmissible) (probation : Option ProbationReport)
      (gap : Option GapReport) : HealingDecision :=
    { action, refusal, drift, probation, gap
      eventId := ofText "heal:" ++ ofText (String.ofList now.text)
      eventRefs := input.contractEvidence.address.toList }
  if drift.score < policy.driftThreshold then decide .none .none .none .none
  else match validateCandidate input.candidate input.contractEvidence input.freshObservation with
    | .error refusal => decide .reject refusal .none .none
    | .ok admitted =>
      let probation := evaluateProbation input.probes admitted.candidateId policy
      if policy.promotionThreshold ≤ probation.score ∧ policy.probationProbes ≤ probation.total then
        decide .promote .none probation .none
      else decide .holdInProbation .none probation
        (some ⟨max 0 (policy.promotionThreshold - probation.score), policy.probationProbes - probation.total⟩)

/-- The contract drifted as far as the policy tolerates, or farther. -/
def Drifted (input : HealInput) (policy : HealingPolicy) : Prop :=
  policy.driftThreshold ≤ (computeDrift input.contractEvidence input.freshObservation).score

def Admissible (input : HealInput) : Prop :=
  ∃ admitted, validateCandidate input.candidate input.contractEvidence input.freshObservation = .ok admitted

variable {input : HealInput} {policy : HealingPolicy} {now : Number}

lemma reject_iff : (planHealing input policy now).action = .reject ↔ Drifted input policy ∧ ¬ Admissible input := by
  rw [planHealing, Drifted, Admissible, ← not_lt]
  dsimp only
  split_ifs with hdrift
  · simp [hdrift]
  · cases hcheck : validateCandidate input.candidate input.contractEvidence input.freshObservation with
    | error refusal => simp [hdrift]
    | ok admitted =>
      dsimp only
      split_ifs
      · simp
      · simp

lemma hold_drifted (h : (planHealing input policy now).action = .holdInProbation) :
    Drifted input policy ∧ Admissible input := by
  rw [planHealing] at h
  dsimp only at h
  split_ifs at h with hdrift
  cases hcheck : validateCandidate input.candidate input.contractEvidence input.freshObservation with
  | error refusal =>
    rw [hcheck] at h
    cases h
  | ok admitted => exact ⟨not_lt.mp hdrift, admitted, hcheck⟩

end VivimOmega.Discovery

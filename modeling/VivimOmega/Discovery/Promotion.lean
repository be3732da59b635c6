import VivimOmega.Library.Double
import VivimOmega.Library.Json.Number
import VivimOmega.Library.Json.Quoting
import VivimOmega.Library.OrderedMap

/-! The promotion decision: a candidate is promoted by the probes of it that passed. -/

namespace VivimOmega.Discovery

open Library Library.Json

structure EvidenceRef where
  ns : JsString
  id : JsString
  rev : ℕ
  deriving DecidableEq

structure Probe where
  candidateId : JsString
  passed : Bool
  evidence : List EvidenceRef
  deriving DecidableEq

structure BindingLike where
  blueprintOp : JsString
  candidateId : JsString
  confidence : Option ℚ

structure PromotionPolicy where
  policyId : JsString
  version : JsString
  threshold : ℚ
  requiredProbes : ℕ
  evidenceRequired : Bool
  threshold_pos : 0 < threshold
  threshold_le : threshold ≤ 1
  requiredProbes_pos : 1 ≤ requiredProbes

inductive CandidateOutcome
  | promoted | draft
  deriving DecidableEq

/-- Why a candidate is not promoted. -/
inductive Gap
  | noProbes (candidateId blueprintOp : JsString)
  | tooFewProbes (probeCount requiredProbes : ℕ)
  | lowScore (score threshold : ℚ)
  | incompleteEvidence (bad : ℕ) (first : Option Probe)
  deriving DecidableEq

structure CandidateVerification where
  candidateId : JsString
  blueprintOp : JsString
  probeCount : ℕ
  passed : ℕ
  score : ℚ
  confidence : Option ℚ
  evidenceComplete : Bool
  status : CandidateOutcome
  gaps : List Gap

structure PromotionEvaluation where
  results : List CandidateVerification
  promoted : List JsString
  stillDraft : List JsString
  orphanProbes : List (JsString × ℕ)
  policy : PromotionPolicy

/-- The key for dedupe and lookup of resolved refs. -/
def refKey (r : EvidenceRef) : JsString :=
  r.ns ++ ofText "|" ++ r.id ++ ofText "|" ++ ofText (String.ofList (Number.ofInt r.rev).text)

section Evaluation

variable (policy : PromotionPolicy) (bindings : List BindingLike) (probes : List Probe) (resolved : List JsString)

def ownProbes (candidateId : JsString) : List Probe := probes.filter fun pr => pr.candidateId = candidateId

def evidenceOk (pr : Probe) : Bool := !pr.evidence.isEmpty && pr.evidence.all fun r => resolved.contains (refKey r)

def evidenceComplete (own : List Probe) : Bool := !own.isEmpty && own.all (evidenceOk resolved)

/-- The probes that passed, with valid evidence where the policy asks for it. -/
def passing (own : List Probe) : List Probe :=
  own.filter fun pr => pr.passed && (!policy.evidenceRequired || evidenceOk resolved pr)

def score (passed total : ℕ) : ℚ := if total = 0 then 0 else double (passed / total)

def gaps (binding : BindingLike) (own : List Probe) : List Gap :=
  if own.isEmpty then [.noProbes binding.candidateId binding.blueprintOp]
  else
    (if own.length < policy.requiredProbes then [.tooFewProbes own.length policy.requiredProbes] else []) ++
    (if score (passing policy resolved own).length own.length < policy.threshold then
      [.lowScore (round2 (score (passing policy resolved own).length own.length)) policy.threshold] else []) ++
    if policy.evidenceRequired && !evidenceComplete resolved own then
      let bad := own.filter fun pr => !evidenceOk resolved pr
      [.incompleteEvidence bad.length bad.head?] else []

def verification (binding : BindingLike) : CandidateVerification :=
  let own := ownProbes probes binding.candidateId
  let passed := (passing policy resolved own).length
  let gaps := gaps policy resolved binding own
  { candidateId := binding.candidateId
    blueprintOp := binding.blueprintOp
    probeCount := own.length
    passed := passed
    score := round2 (score passed own.length)
    confidence := binding.confidence
    evidenceComplete := evidenceComplete resolved own
    status := if gaps.isEmpty then .promoted else .draft
    gaps := gaps }

/-- How many probes cite each candidate that the mapping never bound. -/
def orphanProbes : List (JsString × ℕ) :=
  let counts := probes.foldl (fun (m : OrderedMap JsString ℕ) pr =>
    if pr.candidateId ∈ bindings.map BindingLike.candidateId then m
    else m.set pr.candidateId ((m.get? pr.candidateId).getD 0 + 1)) .empty
  counts.entries.insertionSort fun a b => ¬ b.1 < a.1

def evaluatePromotion : PromotionEvaluation :=
  let results := bindings.map (verification policy probes resolved)
  { results := results
    promoted := (results.filter fun r => r.status = .promoted).map CandidateVerification.candidateId
    stillDraft := (results.filter fun r => r.status = .draft).map CandidateVerification.candidateId
    orphanProbes := orphanProbes bindings probes
    policy := policy }

end Evaluation

/-- What a promotion takes, where `resolves` says which refs the vault has. -/
structure Proven (policy : PromotionPolicy) (probes : List Probe) (resolves : EvidenceRef → Prop)
    (candidateId : JsString) : Prop where
  enough : policy.requiredProbes ≤ (ownProbes probes candidateId).length
  evidence : policy.evidenceRequired = true → ∀ pr ∈ ownProbes probes candidateId, pr.evidence ≠ [] ∧
    ∀ r ∈ pr.evidence, resolves r
  share : policy.threshold ≤ double
    ((((ownProbes probes candidateId).filter Probe.passed).length : ℚ) / (ownProbes probes candidateId).length)

variable {policy : PromotionPolicy} {bindings : List BindingLike} {probes own : List Probe} {resolved : List JsString}

lemma evidenceOk_iff {pr : Probe} : evidenceOk resolved pr = true ↔
    pr.evidence ≠ [] ∧ ∀ r ∈ pr.evidence, refKey r ∈ resolved := by
  simp [evidenceOk]

lemma evidenceComplete_iff : evidenceComplete resolved own = true ↔
    own ≠ [] ∧ ∀ pr ∈ own, evidenceOk resolved pr = true := by
  simp [evidenceComplete]

/-- Where the policy asks for evidence and all of it is there, what counts is that a probe passed. -/
lemma passing_eq (h : policy.evidenceRequired = true → ∀ pr ∈ own, evidenceOk resolved pr = true) :
    passing policy resolved own = own.filter Probe.passed := by
  apply List.filter_congr
  intro pr hpr
  cases hreq : policy.evidenceRequired with
  | false => simp
  | true => simp [h hreq pr hpr]

lemma gaps_eq_nil {binding : BindingLike} : gaps policy resolved binding own = [] ↔
    own ≠ [] ∧ policy.requiredProbes ≤ own.length ∧
      policy.threshold ≤ score (passing policy resolved own).length own.length ∧
        (policy.evidenceRequired = true → evidenceComplete resolved own = true) := by
  by_cases hown : own = []
  · simp [gaps, hown]
  · have hne : own.isEmpty = false := by simpa using hown
    simp only [gaps, hne, Bool.false_eq_true, if_false, List.append_eq_nil_iff, ite_eq_right_iff, List.cons_ne_nil,
      imp_false, not_lt, Bool.and_eq_true, Bool.not_eq_true', not_and, Bool.not_eq_false, ne_eq, hown, not_false_iff,
      true_and, and_assoc]

lemma gaps_eq_nil_iff {binding : BindingLike} : gaps policy resolved binding (ownProbes probes binding.candidateId) = [] ↔
    Proven policy probes (fun r => refKey r ∈ resolved) binding.candidateId := by
  rw [gaps_eq_nil]
  set own := ownProbes probes binding.candidateId with hown
  have hscore : own ≠ [] → score (own.filter Probe.passed).length own.length =
      double (((own.filter Probe.passed).length : ℚ) / own.length) := fun hne =>
    if_neg (by simpa using hne)
  constructor
  · rintro ⟨hne, henough, hshare, hcomplete⟩
    have hok : policy.evidenceRequired = true → ∀ pr ∈ own, evidenceOk resolved pr = true := fun hreq =>
      (evidenceComplete_iff.mp (hcomplete hreq)).2
    rw [passing_eq hok, hscore hne] at hshare
    exact ⟨henough, fun hreq pr hpr => evidenceOk_iff.mp (hok hreq pr hpr), hshare⟩
  · rintro ⟨henough, hevidence, hshare⟩
    have hne : own ≠ [] := by
      have hpos := policy.requiredProbes_pos
      rintro hnil
      rw [← hown, hnil, List.length_nil] at henough
      omega
    have hok : policy.evidenceRequired = true → ∀ pr ∈ own, evidenceOk resolved pr = true := fun hreq pr hpr =>
      evidenceOk_iff.mpr (hevidence hreq pr hpr)
    rw [passing_eq hok, hscore hne]
    exact ⟨hne, henough, hshare, fun hreq => evidenceComplete_iff.mpr ⟨hne, hok hreq⟩⟩

lemma promoted_iff {binding : BindingLike} : (verification policy probes resolved binding).status = .promoted ↔
    Proven policy probes (fun r => refKey r ∈ resolved) binding.candidateId := by
  rw [← gaps_eq_nil_iff, ← List.isEmpty_iff]
  simp only [verification]
  split_ifs with h
  · simp [h]
  · simp [h]

lemma Proven.mono {resolves resolves' : EvidenceRef → Prop} {candidateId : JsString}
    (h : Proven policy probes resolves candidateId)
    (hmono : ∀ pr ∈ probes, ∀ r ∈ pr.evidence, resolves r → resolves' r) : Proven policy probes resolves' candidateId where
  enough := h.enough
  evidence := fun hreq pr hpr => ⟨(h.evidence hreq pr hpr).1, fun r hr =>
    hmono pr (List.mem_filter.mp hpr).1 r hr ((h.evidence hreq pr hpr).2 r hr)⟩
  share := h.share

/-- Only what becomes of the refs that the probes cite matters. -/
lemma Proven.congr {resolves resolves' : EvidenceRef → Prop} {candidateId : JsString}
    (h : ∀ pr ∈ probes, ∀ r ∈ pr.evidence, (resolves r ↔ resolves' r)) :
    Proven policy probes resolves candidateId ↔ Proven policy probes resolves' candidateId :=
  ⟨fun hp => hp.mono fun pr hpr r hr => (h pr hpr r hr).mp, fun hp => hp.mono fun pr hpr r hr => (h pr hpr r hr).mpr⟩

lemma mem_promoted {candidateId : JsString} : candidateId ∈ (evaluatePromotion policy bindings probes resolved).promoted ↔
    candidateId ∈ bindings.map BindingLike.candidateId ∧
      Proven policy probes (fun r => refKey r ∈ resolved) candidateId := by
  simp only [evaluatePromotion, List.mem_map, List.mem_filter, decide_eq_true_eq]
  constructor
  · rintro ⟨r, ⟨⟨b, hb, rfl⟩, hstatus⟩, rfl⟩
    exact ⟨⟨b, hb, rfl⟩, promoted_iff.mp hstatus⟩
  · rintro ⟨⟨b, hb, rfl⟩, hproven⟩
    exact ⟨_, ⟨⟨b, hb, rfl⟩, promoted_iff.mpr hproven⟩, rfl⟩

end VivimOmega.Discovery

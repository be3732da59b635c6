import VivimOmega.Discovery.Healing

/-! Which replacements the healing loop promotes, and what further probes can change of that. -/

namespace VivimOmega.Discovery

open Library Library.Json

section Gate

variable {input : HealInput} {policy : HealingPolicy} {now : Number}

/-- The candidate that probes are told apart by, if there is one and it has an id. -/
def HealInput.candidateId (input : HealInput) : Option JsString := input.candidate.bind SurfaceContract.identity

/-- The probes that name no other candidate. -/
def HealInput.admissible (input : HealInput) : List ProbeResult := input.probes.filter fun p => !foreign input.candidateId p

def HealInput.passed (input : HealInput) : List ProbeResult := input.admissible.filter ProbeResult.passed

/-- What is there on both sides is the same on both. -/
def Coincide (x y : Option JsString) : Prop := ∀ a ∈ x, ∀ b ∈ y, a = b

lemma clash_none {x y : Option JsString} : clash x y = none ↔ Coincide x y := by
  cases x with
  | none => exact iff_of_true rfl fun a ha => by cases ha
  | some a =>
    cases y with
    | none => exact iff_of_true rfl fun _ _ b hb => by cases hb
    | some b =>
      rw [clash]
      simp [Coincide]

/-- A replacement that is proven as far as the policy asks. -/
structure ProvenReplacement (input : HealInput) (policy : HealingPolicy) : Prop where
  drift : policy.driftThreshold ≤ (computeDrift input.contractEvidence input.freshObservation).score
  candidate : ∃ candidate ∈ input.candidate, 0 < evidenceCited candidate ∧ Coincide candidate.op input.contractEvidence.op ∧
    Coincide (candidate.selector.filter (· ≠ [])) (input.freshObservation.selector.filter (· ≠ []))
  probes : policy.probationProbes ≤ input.admissible.length
  share : policy.promotionThreshold ≤ score input.passed.length input.admissible.length

lemma validateCandidate_ok {candidate : Option SurfaceContract} {contract : SurfaceContract} {observation : FreshObservation}
    {admitted : Admitted} : validateCandidate candidate contract observation = .ok admitted ↔
    ∃ c ∈ candidate, 0 < evidenceCited c ∧ Coincide c.op contract.op ∧
      Coincide (c.selector.filter (· ≠ [])) (observation.selector.filter (· ≠ [])) ∧ admitted = ⟨c.identity, evidenceCited c⟩ := by
  cases candidate with
  | none => simp [validateCandidate]
  | some c =>
    have hsome : ∀ P : SurfaceContract → Prop, (∃ d ∈ some c, P d) ↔ P c := by simp
    rw [hsome, validateCandidate]
    by_cases hcited : evidenceCited c = 0
    · simp [hcited]
    · rw [if_neg hcited, ← clash_none, ← clash_none]
      cases hop : clash c.op contract.op with
      | some pair => simp
      | none =>
        cases hselector : clash (c.selector.filter (· ≠ [])) (observation.selector.filter (· ≠ [])) with
        | some pair => simp
        | none =>
          simp only [Except.ok.injEq, true_and]
          exact ⟨fun h => ⟨Nat.pos_of_ne_zero hcited, h.symm⟩, fun h => h.2.symm⟩

/-- The probation of an admitted candidate is over the probes that name no other one. -/
lemma evaluateProbation_admitted {candidate : SurfaceContract} (h : input.candidate = some candidate) (policy : HealingPolicy) :
    (evaluateProbation input.probes candidate.identity policy).total = input.admissible.length ∧
    (evaluateProbation input.probes candidate.identity policy).score = score input.passed.length input.admissible.length := by
  have hid : input.candidateId = candidate.identity := by
    rw [HealInput.candidateId, h]
    rfl
  rw [HealInput.passed, HealInput.admissible, hid]
  exact ⟨rfl, rfl⟩

lemma promote_iff : (planHealing input policy now).action = .promote ↔ ProvenReplacement input policy := by
  rw [planHealing]
  dsimp only
  split_ifs with hdrift
  · exact iff_of_false (fun h => by cases h) fun h => absurd h.drift (not_le.mpr hdrift)
  · cases hcheck : validateCandidate input.candidate input.contractEvidence input.freshObservation with
    | error refusal =>
      refine iff_of_false (fun h => by cases h) fun h => ?_
      obtain ⟨c, hc, hcited, hop, hselector⟩ := h.candidate
      have hok := validateCandidate_ok.mpr ⟨c, hc, hcited, hop, hselector, rfl⟩
      rw [hcheck] at hok
      cases hok
    | ok admitted =>
      obtain ⟨c, hc, hcited, hop, hselector, rfl⟩ := validateCandidate_ok.mp hcheck
      obtain ⟨htotal, hscore⟩ := evaluateProbation_admitted hc policy
      dsimp only
      rw [htotal, hscore]
      split_ifs with hgate
      · exact iff_of_true rfl ⟨not_lt.mp hdrift, ⟨c, hc, hcited, hop, hselector⟩, hgate.2, hgate.1⟩
      · exact iff_of_false (fun h => by cases h) fun h => hgate ⟨h.share, h.probes⟩

end Gate

section Probes

variable {input : HealInput} {policy : HealingPolicy} {now : Number} {probes : List ProbeResult} {p : ProbeResult}

/-- The same input with other probes. -/
def HealInput.withProbes (input : HealInput) (probes : List ProbeResult) : HealInput := { input with probes }

lemma admissible_withProbes (input : HealInput) (probes : List ProbeResult) :
    (input.withProbes probes).admissible = probes.filter fun p => !foreign input.candidateId p := rfl

lemma admissible_perm (h : probes.Perm (p :: input.probes)) : (input.withProbes probes).admissible.Perm
    (if foreign input.candidateId p then input.admissible else p :: input.admissible) := by
  rw [admissible_withProbes]
  refine (h.filter _).trans ?_
  rw [List.filter_cons]
  cases foreign input.candidateId p <;> exact List.Perm.refl _

/-- Whether a replacement is proven depends on the probes that name no other candidate, and not on their order. -/
lemma proven_congr {probes probes' : List ProbeResult}
    (h : (input.withProbes probes).admissible.Perm (input.withProbes probes').admissible) :
    ProvenReplacement (input.withProbes probes) policy → ProvenReplacement (input.withProbes probes') policy := by
  intro hproven
  have hpassed : (input.withProbes probes).passed.length = (input.withProbes probes').passed.length := (h.filter _).length_eq
  refine ⟨hproven.drift, hproven.candidate, ?_, ?_⟩
  · rw [← h.length_eq]
    exact hproven.probes
  · rw [← h.length_eq, ← hpassed]
    exact hproven.share

lemma score_anti {passed total : ℕ} (hpos : 0 < total) : score passed (total + 1) ≤ score passed total := by
  rw [score, score, if_neg (Nat.succ_ne_zero total), if_neg hpos.ne']
  apply double_mono
  · positivity
  · have htotal : (0 : ℚ) < total := by exact_mod_cast hpos
    push_cast
    gcongr
    linarith

/-- What the healing loop promotes, and that neither a failing probe nor one of another candidate helps to it. -/
structure PromotesProven (input : HealInput) (policy : HealingPolicy) (now : Number) : Prop where
  proven : (planHealing input policy now).action = .promote ↔ ProvenReplacement input policy
  failing : ∀ p probes, probes.Perm (p :: input.probes) → p.passed = false → policy.probationProbes ≤ input.admissible.length →
    (planHealing input policy now).action ≠ .promote → (planHealing (input.withProbes probes) policy now).action ≠ .promote
  other : ∀ p probes, probes.Perm (p :: input.probes) → foreign input.candidateId p = true →
    (planHealing input policy now).action ≠ .promote → (planHealing (input.withProbes probes) policy now).action ≠ .promote

def lenient : HealingPolicy where
  policyId := ofText "discovery.healing-policy@1"
  driftThreshold := 1 / 2
  probationProbes := 1
  promotionThreshold := 1 / 2
  drift_pos := by norm_num
  drift_le := by norm_num
  probes_pos := le_rfl
  promotion_pos := by norm_num
  promotion_le := by norm_num

def surface (op risk : Option String) (evidence : Value) : SurfaceContract :=
  ⟨op.map ofText, none, none, risk.map ofText, evidence, none, none, none, none, none⟩

/-- A sending contract whose risk has changed, and a candidate that cites evidence but names no op. -/
def unnamed : HealInput where
  contractEvidence := surface (some "message.send") (some "READ") .undefined
  freshObservation := ⟨none, none, some (ofText "MUTATION"), none⟩
  candidate := some (surface none none (.string (ofText "capture")))
  probes := [⟨none, true⟩]

lemma unnamed_proven : ProvenReplacement unnamed lenient where
  drift := by decide +kernel
  candidate := by
    refine ⟨_, rfl, by decide, fun a ha => ?_, fun a ha => ?_⟩
    · cases ha
    · cases ha
  probes := by decide
  share := by decide +kernel

end Probes

end VivimOmega.Discovery

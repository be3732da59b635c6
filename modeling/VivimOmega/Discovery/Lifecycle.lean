import VivimOmega.Discovery.Heal
import VivimOmega.Discovery.Proof

/-! The lifecycle of a realization record, which two plugins write. -/

namespace VivimOmega.Discovery

open Library Library.Json Vault

/-- The documented transitions. -/
def successors : RealizationStatus → List RealizationStatus
  | .draft => [.testing]
  | .testing => [.promoted, .requiresRediscovery]
  | .promoted => [.degraded]
  | .degraded => [.testing]
  | .requiresRediscovery => [.draft]

/-- A status may also be recorded again. -/
def Legal (before after : RealizationStatus) : Prop := after = before ∨ after ∈ successors before

instance instDecidableLegal (before after : RealizationStatus) : Decidable (Legal before after) :=
  inferInstanceAs (Decidable (_ ∨ _))

/-- What the evidence of one call says of a realization. -/
inductive Grounds
  | proven | failed | unproven | drifted | probation
  deriving DecidableEq

namespace Grounds

def status : Grounds → RealizationStatus
  | proven => .promoted
  | failed => .requiresRediscovery
  | unproven => .testing
  | drifted => .degraded
  | probation => .testing

/-- The statuses that these grounds may be recorded upon. -/
def due : Grounds → List RealizationStatus
  | proven => [.testing, .promoted]
  | failed => [.testing, .requiresRediscovery]
  | unproven => [.draft, .degraded, .testing]
  | drifted => [.promoted, .degraded]
  | probation => [.draft, .degraded, .testing]

lemma legal_iff (before : RealizationStatus) (g : Grounds) : Legal before g.status ↔ before ∈ g.due := by
  cases before <;> cases g <;> decide

end Grounds

/-- Each of these grounds is due upon the status that the one before it left. -/
def AllDue : RealizationStatus → List Grounds → Prop
  | _, [] => True
  | before, g :: rest => before ∈ g.due ∧ AllDue g.status rest

inductive Call
  | verify (c : VerifyCall)
  | heal (c : HealCall)

/-- One call with what it asked and was told. -/
structure Turn where
  call : Call
  told : List Exchange

namespace Turn

def Happens (t : Turn) : Prop :=
  match t.call with
  | .verify c => ∃ rest, (verify c).run.After t.told rest
  | .heal c => ∃ rest, (heal c).run.After t.told rest

/-- A ref counts as there when the vault has one of its key. -/
def Resolves (t : Turn) (r : EvidenceRef) : Prop := ∃ r', Found t.told r' ∧ refKey r' = refKey r

/-- A probe that passed, with evidence where the policy asks for it. -/
def Counts (t : Turn) (policy : PromotionPolicy) (pr : Probe) : Prop :=
  pr.passed = true ∧ (policy.evidenceRequired = true → pr.evidence ≠ [] ∧ ∀ r ∈ pr.evidence, t.Resolves r)

/-- The evidence of a verification for the grounds of one of its bindings. -/
def Verifies (t : Turn) (c : VerifyCall) (b : BindingLike) : Grounds → Prop
  | .proven => Proven c.policy c.probes t.Resolves b.candidateId
  | .failed => ¬ Proven c.policy c.probes t.Resolves b.candidateId ∧
      ∃ pr ∈ ownProbes c.probes b.candidateId, ¬ t.Counts c.policy pr
  | .unproven => ¬ Proven c.policy c.probes t.Resolves b.candidateId ∧ ownProbes c.probes b.candidateId ≠ [] ∧
      ∀ pr ∈ ownProbes c.probes b.candidateId, t.Counts c.policy pr
  | _ => False

/-- The evidence of a healing decision. -/
def Heals (c : HealCall) : Grounds → Prop
  | .drifted => Drifted c.input c.policy ∧ ¬ Admissible c.input
  | .probation => Drifted c.input c.policy ∧ Admissible c.input
  | _ => False

/-- A call records upon its own evidence and nothing else. -/
def Upholds (t : Turn) (id : JsString) (g : Grounds) : Prop :=
  match t.call with
  | .verify c => ∃ p b, c.provider = some p ∧ b ∈ c.bindings ∧ RecordedAs p b id ∧ t.Verifies c b g
  | .heal c => (∃ a, attribution c = .ok a ∧ a.id = id) ∧ Heals c g

end Turn

structure Session (turns : List Turn) : Prop where
  happens : ∀ t ∈ turns, t.Happens
  appended : ∀ t ∈ turns, ∀ row a, (⟨.append row, a⟩ : Exchange) ∈ t.told → ∃ rev, a = .ok rev

/-- The records of a realization, each with the call that wrote it. -/
def records (turns : List Turn) (id : JsString) : List (Turn × ProviderRealization) :=
  turns.flatMap fun t => ((t.told.filterMap written).filter fun row => row.1 = id).map fun row => (t, row.2)

def statuses (turns : List Turn) (id : JsString) : List RealizationStatus :=
  (records turns id).map fun x => x.2.status

section Records

variable {t : Turn} {turns : List Turn} {id : JsString}

lemma counts_iff {policy : PromotionPolicy} {resolved : List JsString} (hkeys : Keys t.told resolved) {pr : Probe} :
    (pr.passed && (!policy.evidenceRequired || evidenceOk resolved pr)) = true ↔ t.Counts policy pr := by
  have hresolves : ∀ r, refKey r ∈ resolved ↔ t.Resolves r := fun r => hkeys (refKey r)
  rw [Bool.and_eq_true, Bool.or_eq_true, Bool.not_eq_true', evidenceOk_iff, Turn.Counts]
  simp only [hresolves]
  cases policy.evidenceRequired with
  | false => simp
  | true => simp

lemma verification_upholds {c : VerifyCall} (hcall : t.call = .verify c) (h : t.Happens)
    {row : JsString × ProviderRealization} (hrow : row ∈ t.told.filterMap written) :
    ∃ g : Grounds, t.Upholds row.1 g ∧ row.2.status = g.status := by
  rw [Turn.Happens, hcall] at h
  obtain ⟨rest, hafter⟩ := h
  obtain ⟨p, resolved, b, hp, hkeys, hb, status, slug, hverdict, hslug, hid, hrecord⟩ := row_writes hafter hrow
  have hstatus : row.2.status = status := by rw [hrecord]; rfl
  have hproven : Proven c.policy c.probes t.Resolves b.candidateId ↔
      (verification c.policy c.probes resolved b).status = .promoted := by
    rw [promoted_iff]
    exact Proven.congr fun pr _ r _ => (hkeys (refKey r)).symm
  have huphold : ∀ g, t.Verifies c b g → t.Upholds row.1 g := by
    intro g hg
    rw [Turn.Upholds, hcall]
    exact ⟨p, b, hp, hb, ⟨slug, hslug, hid⟩, hg⟩
  have hcounted : (passing c.policy resolved (ownProbes c.probes b.candidateId)).length =
      (ownProbes c.probes b.candidateId).length ↔ ∀ pr ∈ ownProbes c.probes b.candidateId, t.Counts c.policy pr := by
    rw [passing, List.length_filter_eq_length_iff]
    exact forall₂_congr fun pr _ => counts_iff hkeys
  have hle : (passing c.policy resolved (ownProbes c.probes b.candidateId)).length ≤
      (ownProbes c.probes b.candidateId).length := List.length_filter_le _ _
  rw [verdict] at hverdict
  split_ifs at hverdict with hpromoted hzero hfailed
  · exact ⟨.proven, huphold _ (hproven.mpr hpromoted), by rw [hstatus, ← Option.some.inj hverdict]; rfl⟩
  · refine ⟨.failed, huphold _ ⟨fun hp => hpromoted (hproven.mp hp), ?_⟩, ?_⟩
    · by_contra hall
      push Not at hall
      have hlength := hcounted.mpr hall
      simp only [verification] at hfailed
      omega
    · rw [hstatus, ← Option.some.inj hverdict]
      rfl
  · refine ⟨.unproven, huphold _ ⟨fun hp => hpromoted (hproven.mp hp), ?_, hcounted.mp ?_⟩, ?_⟩
    · rintro hnil
      apply hzero
      simp [verification, hnil]
    · simp only [verification] at hfailed
      omega
    · rw [hstatus, ← Option.some.inj hverdict]
      rfl

lemma healing_upholds {c : HealCall} (hcall : t.call = .heal c) (h : t.Happens)
    {row : JsString × ProviderRealization} (hrow : row ∈ t.told.filterMap written) :
    ∃ g : Grounds, t.Upholds row.1 g ∧ row.2.status = g.status := by
  rw [Turn.Happens, hcall] at h
  obtain ⟨rest, hafter⟩ := h
  obtain ⟨x, hx, hwritten⟩ := List.mem_filterMap.mp hrow
  obtain ⟨before, more, hsplit⟩ := List.append_of_mem hx
  obtain ⟨refs, hq⟩ := written_eq hwritten
  have hasked := (heal_meets c).asked hafter hsplit
  rw [hq] at hasked
  obtain ⟨hstatus, ha⟩ := hasked
  have huphold : ∀ g, Turn.Heals c g → t.Upholds row.1 g := by
    intro g hg
    rw [Turn.Upholds, hcall]
    exact ⟨ha, hg⟩
  cases haction : (planHealing c.input c.policy c.now).action with
  | reject =>
    rw [haction] at hstatus
    exact ⟨.drifted, huphold _ (reject_iff.mp haction), (Option.some.inj hstatus).symm⟩
  | holdInProbation =>
    rw [haction] at hstatus
    exact ⟨.probation, huphold _ (hold_drifted haction), (Option.some.inj hstatus).symm⟩
  | none =>
    rw [haction] at hstatus
    cases hstatus
  | promote =>
    rw [haction] at hstatus
    cases hstatus

lemma record_upholds (h : Session turns) : ∀ x ∈ records turns id,
    ∃ g : Grounds, x.1.Upholds id g ∧ x.2.status = g.status := by
  intro x hx
  obtain ⟨t, ht, hmem⟩ := List.mem_flatMap.mp hx
  obtain ⟨row, hrow, rfl⟩ := List.mem_map.mp hmem
  obtain ⟨hwritten, hid⟩ := List.mem_filter.mp hrow
  rw [← of_decide_eq_true hid]
  cases hcall : t.call with
  | verify c => exact verification_upholds hcall (h.happens t ht) hwritten
  | heal c => exact healing_upholds hcall (h.happens t ht) hwritten

lemma chain_iff_due (gs : List Grounds) (before : RealizationStatus) :
    List.IsChain Legal (before :: gs.map Grounds.status) ↔ AllDue before gs := by
  induction gs generalizing before with
  | nil => simp [AllDue]
  | cons g rest ih =>
    rw [List.map_cons, List.isChain_cons_cons, ih, Grounds.legal_iff]
    rfl

end Records

namespace Sample

/-- One verification on a vault with no record yet. -/
def first : List Turn := [⟨.verify cited, ((verify cited).run.told (answer [span])).1⟩]

lemma first_session : Session first := by
  refine ⟨fun t ht => ?_, fun t ht row a ha => ?_⟩
  · rw [List.mem_singleton.mp ht]
    exact ⟨_, Process.after_told _ _⟩
  · rw [List.mem_singleton.mp ht] at ha
    exact ⟨(1 : ℕ), Process.mem_told ha⟩

def firstId : JsString := ofText "realization:message.send:acme"

lemma first_statuses : statuses first firstId = [.promoted] := by decide +kernel

end Sample

end VivimOmega.Discovery

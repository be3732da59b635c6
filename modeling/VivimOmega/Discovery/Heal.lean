import VivimOmega.Discovery.Verify

/-! The healing op: the decision is journaled, and what it says of a realization recorded. -/

namespace VivimOmega.Discovery

open Library Library.Json Vault

structure HealProvider where
  id : Option JsString
  cls : Value

structure HealCall where
  input : HealInput
  policy : HealingPolicy
  now : Number
  canAppend : Bool
  canGet : Bool
  provider : Option HealProvider
  archetypeSlug : Option JsString

structure JournalOutcome where
  appended : Bool
  rev : Option ℕ
  detail : String

inductive RealizationWriteOutcome
  | written (id : JsString) (status : RealizationStatus) (rev : ℕ)
  | unwritten (detail : String)

structure HealReport where
  decision : HealingDecision
  journal : JournalOutcome
  realization : RealizationWriteOutcome

/-- Journaling is best effort: the decision stands without it. -/
def journalHealEvent (c : HealCall) (decision : HealingDecision) : Handler JournalOutcome :=
  if !c.canAppend then
    pure ⟨false, none, "capability port:vault.append@1 not granted — healing decision stands, event not journaled"⟩
  else do
    let answer : Except Failure ℕ ← Throwing.ask (Request.append (.healing decision))
    match answer with
    | .ok rev => pure ⟨true, some rev, ""⟩
    | .error f => pure ⟨false, none, "vault append " ++ errorText f.code ++ ": " ++ f.detail⟩

/-- Drift without an admissible candidate degrades, probation tests; the other actions record nothing. -/
def healedStatus : HealingAction → Option RealizationStatus
  | .reject => some .degraded
  | .holdInProbation => some .testing
  | _ => none

/-- The slug that was supplied, else that of the drifted contract's op. -/
def healSlug (c : HealCall) : Except String JsString :=
  match c.archetypeSlug.filter (· ≠ []) with
  | some slug => return slug
  | none =>
    match c.input.contractEvidence.op.filter (· ≠ []) with
    | some op => archetypeSlugForOp op
    | none => throw "no archetypeSlug supplied and contractEvidence.op absent — status not attributable"

def healClass : Value → Option ProviderClass
  | .undefined => some .simulator
  | .string s =>
    if s = ofText "SIMULATOR" then some .simulator
    else if s = ofText "API_NATIVE" then some .apiNative
    else if s = ofText "BROWSER_MEDIATED" then some .browserMediated
    else none
  | _ => none

structure Attribution where
  slug : JsString
  providerId : JsString
  cls : ProviderClass
  id : JsString

/-- Whose realization the decision is about. -/
def attribution (c : HealCall) : Except String Attribution := do
  let slug ← healSlug c
  match c.provider.bind fun p => (p.id.filter (· ≠ [])).map fun id => (id, p.cls) with
  | none => throw "no provider identity supplied (heal@1 provider?: \x7bid, class?\x7d) — status not attributable"
  | some (providerId, cls) =>
    match healClass cls with
    | none => throw "provider.class must be one of SIMULATOR|API_NATIVE|BROWSER_MEDIATED"
    | some cls => do
      let id ← providerRealizationId slug providerId
      return ⟨slug, providerId, cls, id⟩

def priorMember (prior : Option Got) (name : String) : Value :=
  match prior.bind fun got => member got.data name with
  | some .undefined => .null
  | some v => v
  | none => .null

/-- The record before, where it is an object. -/
def priorRecord (c : HealCall) (id : JsString) : Handler (Option Got) :=
  if c.canGet then do
    match ← Throwing.ask (.get providersNs id none) with
    | .ok got =>
      match got.data with
      | .object _ => pure (some got)
      | _ => pure none
    | .error _ => pure none
  else pure none

def healedRecord (c : HealCall) (a : Attribution) (status : RealizationStatus) (journalRef : Option EvidenceRef)
    (prior : Option Got) : ProviderRealization where
  archetypeSlug := a.slug
  providerId := a.providerId
  providerClass := a.cls
  status := status
  discoverySessionRef := priorMember prior "discoverySessionRef"
  opMapRef := priorMember prior "opMapRef"
  entityMapRef := priorMember prior "entityMapRef"
  streamRefs := match priorMember prior "streamRefs" with
    | .array items => .array items
    | _ => .array []
  evidenceRefs := (c.input.contractEvidence.address.toList ++ journalRef.toList).map fun r => ⟨r, false⟩
  supersedes := prior.map fun got => ⟨providersNs, a.id, got.rev⟩
  createdAt := c.now
  parserPins := []

def writeRealizationStatus (c : HealCall) (decision : HealingDecision) (journal : JournalOutcome) :
    Handler RealizationWriteOutcome :=
  match healedStatus decision.action with
  | none => pure (.unwritten "no realization write for this action")
  | some status =>
    if !c.canAppend then pure (.unwritten "capability port:vault.append@1 not granted — drift state not recorded")
    else match attribution c with
      | .error detail => pure (.unwritten detail)
      | .ok a => do
        let prior ← priorRecord c a.id
        let journalRef := journal.rev.map fun rev => ⟨discoveryNs, decision.eventId, rev⟩
        let record := healedRecord c a status journalRef prior
        let answer : Except Failure ℕ ← Throwing.ask (Request.append (.realization a.id record record.evidenceRefs))
        match answer with
        | .ok rev => pure (.written a.id status rev)
        | .error f => pure (.unwritten ("vault append " ++ errorText f.code ++ ": " ++ f.detail))

def heal (c : HealCall) : Handler HealReport := do
  let decision := planHealing c.input c.policy c.now
  let journal ← journalHealEvent c decision
  let realization ← writeRealizationStatus c decision journal
  pure ⟨decision, journal, realization⟩

section Healed

/-- A healing call records nothing but the status of its own decision. -/
def HealAsks (c : HealCall) (_ : List Exchange) : Request → Prop
  | .get .. => True
  | .append (.promotion ..) => False
  | .append (.healing decision) => decision = planHealing c.input c.policy c.now
  | .append (.realization id record _) =>
    healedStatus (planHealing c.input c.policy c.now).action = some record.status ∧
      ∃ a, attribution c = .ok a ∧ a.id = id

variable (c : HealCall)

lemma meets_journal {past : List Exchange} :
    (journalHealEvent c (planHealing c.input c.policy c.now)).run.Meets (HealAsks c) (fun _ _ => True) past := by
  rw [journalHealEvent]
  split_ifs
  · trivial
  · refine Throwing.meets_ask rfl fun a => ?_
    cases a with
    | error f => trivial
    | ok rev => trivial

lemma meets_prior {id : JsString} {past : List Exchange} :
    (priorRecord c id).run.Meets (HealAsks c) (fun _ _ => True) past := by
  rw [priorRecord]
  split_ifs
  · refine Throwing.meets_ask trivial fun a => ?_
    cases a with
    | error f => trivial
    | ok got =>
      dsimp only
      split
      · trivial
      · trivial
  · trivial

lemma meets_writeStatus {journal : JournalOutcome} {past : List Exchange} :
    (writeRealizationStatus c (planHealing c.input c.policy c.now) journal).run.Meets (HealAsks c)
      (fun _ _ => True) past := by
  rw [writeRealizationStatus]
  cases hstatus : healedStatus (planHealing c.input c.policy c.now).action with
  | none => trivial
  | some status =>
    dsimp only
    split_ifs
    · trivial
    · cases ha : attribution c with
      | error detail => trivial
      | ok a =>
        refine Throwing.meets_bind (meets_prior c) (fun _ _ _ => trivial) fun l prior _ => ?_
        refine Throwing.meets_ask ⟨hstatus, a, ha, rfl⟩ fun answer => ?_
        cases answer with
        | error f => trivial
        | ok rev => trivial

lemma heal_meets : (heal c).run.Meets (HealAsks c) (fun _ _ => True) [] := by
  refine Throwing.meets_bind (meets_journal c) (fun _ _ _ => trivial) fun _ _ _ => ?_
  exact Throwing.meets_bind (meets_writeStatus c) (fun _ _ _ => trivial) fun _ _ _ => trivial

end Healed

end VivimOmega.Discovery

import VivimOmega.Discovery.Port

/-! The promotion gate: probes are judged by the evidence that the vault has. -/

namespace VivimOmega.Discovery

open Library Library.Json Vault

structure Provider where
  id : JsString
  cls : ProviderClass
  parserPins : List ParserPin

/-- A call, its payload read. -/
structure VerifyCall where
  runId : JsString
  policy : PromotionPolicy
  /-- The governed parser pins by their keys. -/
  registry : Except String (List JsString)
  mappingSatisfied : Bool
  bindings : List BindingLike
  probes : List Probe
  candidates : Value
  candidatesRef : Option EvidenceRef
  mappingRef : Option EvidenceRef
  provider : Option Provider
  now : Number

structure WrittenRealization where
  id : JsString
  status : RealizationStatus
  rev : ℕ

structure VerifyReport where
  report : PromotionReport
  candidates : Option (List Value)
  vaultRev : ℕ
  realizations : List WrittenRealization

section Payload

def parserContributionId (providerId archetypeSlug : JsString) : JsString :=
  ofText "parser:" ++ archetypeSlug ++ [colon] ++ providerId

def ParserPin.key (pin : ParserPin) : JsString :=
  parserContributionId pin.providerId pin.archetypeSlug ++ ofText "@" ++ pin.version

/-- A run verifies a parser of its own provider, and that once. -/
def checkPins (providerId : JsString) : List JsString → List ParserPin → Except String Unit
  | _, [] => return ()
  | seen, pin :: rest =>
    let key := parserContributionId pin.providerId pin.archetypeSlug
    if pin.providerId ≠ providerId then
      throw ("discovery.verify@1: parser pin providerId " ++ toText pin.providerId ++ " does not match provider.id " ++
        toText providerId ++ " (fail-closed genealogy)")
    else if key ∈ seen then
      throw ("discovery.verify@1: duplicate parser pin for " ++ toText key ++ " (a run verifies a parser once)")
    else checkPins providerId (key :: seen) rest

def normalizeProvider (p : Provider) : Except String Unit :=
  if p.id = [] then throw "discovery.verify@1: provider.id must be a non-empty string"
  else if colon ∈ p.id then throw "discovery.verify@1: provider.id must not contain ':' (realization id grammar)"
  else checkPins p.id [] p.parserPins

/-- Only governed parser contributions may be pinned. -/
def checkGoverned (registry : Except String (List JsString)) (pins : List ParserPin) : Except String Unit :=
  if pins = [] then return ()
  else do
    let governed ← registry
    match pins.find? fun pin => pin.key ∉ governed with
    | none => return ()
    | some pin => throw ("discovery.verify@1: parser pin " ++ toText pin.key ++
        " is not a governed parser contribution (manifest:discovery.parser-registry@1) — refusing " ++
          "(fail-closed genealogy: parsers are signed manifest data, never caller inventions)")

def checkProvider (c : VerifyCall) : Except String Unit :=
  match c.provider with
  | none => return ()
  | some p => do
    normalizeProvider p
    checkGoverned c.registry p.parserPins

end Payload

/-- The refs once each by their keys, of which the last one stays. -/
def uniqueRefs (refs : List EvidenceRef) : List EvidenceRef :=
  (OrderedMap.ofEntries (refs.map fun r => (refKey r, r))).values

def lookup (r : EvidenceRef) : Request := .get r.ns r.id (some r.rev)

def resolveEvidence : List EvidenceRef → Handler (List JsString × List Unresolved)
  | [] => pure ([], [])
  | r :: rest => do
    let got ← Throwing.ask (lookup r)
    let (resolved, notes) ← resolveEvidence rest
    match got with
    | .ok _ => pure (refKey r :: resolved, notes)
    | .error f => pure (resolved, ⟨r, f⟩ :: notes)

section Candidates

def member (v : Value) (name : String) : Option Value :=
  match v with
  | .object members => members.lookup (ofText name)
  | _ => none

def textMember (v : Value) (name : String) : Option JsString :=
  match member v name with
  | some (.string s) => some s
  | _ => none

def promotedText : JsString := ofText "PROMOTED"

/-- The members that a spread copies. -/
def spread : Value → List (JsString × Value)
  | .object members => members
  | .array items => items.zipIdx.map fun (v, i) => (ofText (toString i), v)
  | _ => []

def rewriteCandidate (promoted : List JsString) (v : Value) : Value :=
  match v with
  | .object _ | .array _ =>
    let status := if (textMember v "id").any (· ∈ promoted) then promotedText
      else (textMember v "status").getD (ofText "DRAFT")
    .object (assign (spread v) (ofText "status") (.string status))
  | v => v

def rewriteCandidates (candidates : Value) (promoted : List JsString) : Option (List Value) :=
  match candidates with
  | .array items => some (items.map (rewriteCandidate promoted))
  | _ => none

end Candidates

/-- Every probe's evidence, then the refs of the payload, once each. -/
def promotionRefs (c : VerifyCall) : List EvidenceRef :=
  (c.probes.flatMap Probe.evidence ++ c.candidatesRef.toList ++ c.mappingRef.toList).foldl
    (fun out r => if refKey r ∈ out.map refKey then out else out ++ [r]) []

/-- The status that a result is recorded with: a binding that was never probed gets no record. -/
def verdict (r : CandidateVerification) : Option RealizationStatus :=
  if r.status = .promoted then some .promoted
  else if r.probeCount = 0 then none
  else if r.probeCount - r.passed > 0 then some .requiresRediscovery else some .testing

/-- The evidence of a candidate: what its passed probes cite is stamped. -/
def stamped (probes : List Probe) (candidateId : JsString) : List ProvenanceRef :=
  (ownProbes probes candidateId).flatMap fun pr => pr.evidence.map fun e => ⟨e, pr.passed⟩

def realization (c : VerifyCall) (p : Provider) (candidateId slug : JsString) (status : RealizationStatus) :
    ProviderRealization where
  archetypeSlug := slug
  providerId := p.id
  providerClass := p.cls
  status := status
  discoverySessionRef := .null
  opMapRef := .null
  entityMapRef := .null
  streamRefs := .array []
  evidenceRefs := stamped c.probes candidateId
  supersedes := none
  createdAt := c.now
  parserPins := p.parserPins

def recordRealizations (c : VerifyCall) (p : Provider) (rev : ℕ) :
    List CandidateVerification → Handler (List WrittenRealization)
  | [] => pure []
  | r :: rest =>
    match verdict r with
    | none => recordRealizations c p rev rest
    | some status => do
      let slug ← liftM (archetypeSlugForOp r.blueprintOp)
      let id ← liftM (providerRealizationId slug p.id)
      let record := realization c p r.candidateId slug status
      let w ← vaultCall (.append (.realization id record
        (record.evidenceRefs ++ [⟨⟨discoveryNs, promotionId c.runId, rev⟩, false⟩])))
      let others ← recordRealizations c p rev rest
      pure (⟨id, status, w⟩ :: others)

def verify (c : VerifyCall) : Handler VerifyReport := do
  liftM (checkProvider c)
  let (resolved, notes) ← resolveEvidence (uniqueRefs (c.probes.flatMap Probe.evidence))
  let evaluation := evaluatePromotion c.policy c.bindings c.probes resolved
  let report : PromotionReport := ⟨c.runId, c.mappingSatisfied, evaluation, notes⟩
  let rev ← vaultCall (.append (.promotion report (promotionRefs c)))
  let realizations ← match c.provider with
    | none => pure []
    | some p => recordRealizations c p rev evaluation.results
  pure ⟨report, rewriteCandidates c.candidates evaluation.promoted, rev, realizations⟩

section Lookups

variable {refs : List EvidenceRef} {past : List Exchange} {r : EvidenceRef}

/-- The vault answered a get of this very ref. -/
def Found (past : List Exchange) (r : EvidenceRef) : Prop := ∃ got, (⟨lookup r, .ok got⟩ : Exchange) ∈ past

/-- The keys of what was found. -/
def Keys (past : List Exchange) (resolved : List JsString) : Prop :=
  ∀ k, k ∈ resolved ↔ ∃ r, Found past r ∧ refKey r = k

def isGet : Request → Bool
  | .get .. => true
  | .append _ => false

lemma mem_uniqueRefs (h : r ∈ uniqueRefs refs) : r ∈ refs := by
  obtain ⟨k, hk⟩ := OrderedMap.mem_values.mp h
  obtain ⟨r', hr', he⟩ := List.mem_map.mp (OrderedMap.mem_of_ofEntries hk)
  obtain ⟨_, rfl⟩ := Prod.mk.inj he
  exact hr'

lemma uniqueRefs_covers (h : r ∈ refs) : ∃ r' ∈ uniqueRefs refs, refKey r' = refKey r := by
  obtain ⟨r', hr'⟩ : ∃ r', (OrderedMap.ofEntries (refs.map fun r => (refKey r, r))).get? (refKey r) = some r' :=
    OrderedMap.ofEntries_has (by simpa using ⟨r, h, rfl⟩)
  obtain ⟨s, _, he⟩ := List.mem_map.mp (OrderedMap.mem_of_ofEntries hr')
  obtain ⟨hkey, rfl⟩ := Prod.mk.inj he
  exact ⟨s, OrderedMap.mem_values.mpr ⟨_, hr'⟩, hkey⟩

lemma lookup_injective : Function.Injective lookup := by
  rintro ⟨ns, id, rev⟩ ⟨ns', id', rev'⟩ h
  simp only [lookup, Request.get.injEq, Option.some.injEq] at h
  obtain ⟨rfl, rfl, rfl⟩ := h
  rfl

lemma found_append {more : List Exchange} : Found (past ++ more) r ↔ Found past r ∨ Found more r := by
  simp only [Found, List.mem_append, exists_or]

lemma not_found_of_appends {more : List Exchange} (h : ∀ x ∈ more, isGet x.1 = false) : ¬ Found more r := by
  rintro ⟨got, hmem⟩
  cases h _ hmem

lemma found_singleton {a : Reply (lookup r)} {r' : EvidenceRef} :
    Found [⟨lookup r, a⟩] r' ↔ r' = r ∧ ∃ got, a = .ok got := by
  constructor
  · rintro ⟨got, hmem⟩
    obtain ⟨hq, ha⟩ := Sigma.mk.inj (List.mem_singleton.mp hmem)
    obtain rfl := lookup_injective hq
    exact ⟨rfl, got, (eq_of_heq ha).symm⟩
  · rintro ⟨rfl, got, rfl⟩
    exact ⟨got, List.mem_singleton_self _⟩

end Lookups

section Gate

variable (c : VerifyCall)

/-- What is recorded of a result. -/
def Writes (p : Provider) (r : CandidateVerification) (id : JsString) (record : ProviderRealization) : Prop :=
  ∃ status slug, verdict r = some status ∧ archetypeSlugForOp r.blueprintOp = .ok slug ∧
    providerRealizationId slug p.id = .ok id ∧ record = realization c p r.candidateId slug status

/-- All gets come first, and a realization is recorded of what they found. -/
def Asks (past : List Exchange) : Request → Prop
  | .get .. => ∀ x ∈ past, isGet x.1 = true
  | .append (.promotion ..) => True
  | .append (.healing _) => False
  | .append (.realization id record _) => ∃ p resolved b, c.provider = some p ∧ Keys past resolved ∧ b ∈ c.bindings ∧
      Writes c p (verification c.policy c.probes resolved b) id record

/-- The rows that were written are those of the bindings with a verdict, in their order. -/
def Rows (resolved : List JsString) (rows : List (JsString × ProviderRealization)) : Prop :=
  match c.provider with
  | none => rows = []
  | some p => List.Forall₂ (fun r row => Writes c p r row.1 row.2)
      ((c.bindings.map (verification c.policy c.probes resolved)).filter fun r => (verdict r).isSome) rows

def Ends (past : List Exchange) : Except String VerifyReport → Prop
  | .error _ => True
  | .ok report => ∃ resolved, Keys past resolved ∧
      (∀ r, (∃ a, (⟨lookup r, a⟩ : Exchange) ∈ past) ↔ r ∈ uniqueRefs (c.probes.flatMap Probe.evidence)) ∧
      report.report.evaluation = evaluatePromotion c.policy c.bindings c.probes resolved ∧
      report.candidates = rewriteCandidates c.candidates report.report.evaluation.promoted ∧
      Rows c resolved (past.filterMap written)

lemma resolveEvidence_meets {refs : List EvidenceRef} {past : List Exchange} (hpast : ∀ x ∈ past, isGet x.1 = true) :
    (resolveEvidence refs).run.Meets (Asks c) (fun l x => ∃ resolved notes answers, x = .ok (resolved, notes) ∧
      l = past ++ answers ∧ answers.map Sigma.fst = refs.map lookup ∧ Keys answers resolved) past := by
  induction refs generalizing past with
  | nil =>
    refine ⟨[], [], [], rfl, (List.append_nil _).symm, rfl, fun k => ?_⟩
    simp [Found]
  | cons r rest ih =>
    refine Throwing.meets_ask hpast fun got => ?_
    have hgets : ∀ x ∈ past ++ [(⟨lookup r, got⟩ : Exchange)], isGet x.1 = true := by
      intro x hx
      obtain hold | hnew := List.mem_append.mp hx
      · exact hpast x hold
      · rw [List.mem_singleton.mp hnew]
        rfl
    refine Throwing.meets_bind (ih hgets) ?_ ?_
    · rintro l e ⟨resolved, notes, answers, hx, _⟩
      cases hx
    · rintro l ⟨resolved, notes⟩ ⟨_, _, answers, hx, rfl, hqs, hkeys⟩
      cases hx
      have hall : (⟨lookup r, got⟩ :: answers : List Exchange).map Sigma.fst = (r :: rest).map lookup := by
        rw [List.map_cons, hqs, List.map_cons]
      cases got with
      | error f =>
        refine ⟨resolved, _, _, rfl, List.append_assoc _ _ _, hall, fun k => ?_⟩
        rw [hkeys]
        simp only [List.singleton_append, Found, List.mem_cons, Sigma.mk.injEq]
        constructor
        · rintro ⟨r', ⟨g, hg⟩, hk⟩
          exact ⟨r', ⟨g, Or.inr hg⟩, hk⟩
        · rintro ⟨r', ⟨g, hg | hg⟩, hk⟩
          · obtain rfl := lookup_injective hg.1
            cases eq_of_heq hg.2
          · exact ⟨r', ⟨g, hg⟩, hk⟩
      | ok got =>
        refine ⟨refKey r :: resolved, _, _, rfl, List.append_assoc _ _ _, hall, fun k => ?_⟩
        rw [List.mem_cons, hkeys]
        simp only [found_append, found_singleton]
        constructor
        · rintro (rfl | ⟨r', hr', hk⟩)
          · exact ⟨r, Or.inl ⟨rfl, got, rfl⟩, rfl⟩
          · exact ⟨r', Or.inr hr', hk⟩
        · rintro ⟨r', ⟨rfl, _⟩ | hr', hk⟩
          · exact Or.inl hk.symm
          · exact Or.inr ⟨r', hr', hk⟩

variable {c} {p : Provider} {past : List Exchange} {resolved : List JsString}

lemma Keys.append {more : List Exchange} (h : Keys past resolved) (hmore : ∀ x ∈ more, isGet x.1 = false) :
    Keys (past ++ more) resolved := by
  intro k
  rw [h]
  simp only [found_append, not_found_of_appends hmore, or_false]

lemma recordRealizations_meets {rev : ℕ} {results : List CandidateVerification} (hp : c.provider = some p)
    (hkeys : Keys past resolved)
    (hresults : ∀ r ∈ results, ∃ b ∈ c.bindings, r = verification c.policy c.probes resolved b) :
    (recordRealizations c p rev results).run.Meets (Asks c) (fun l x => ∀ ws, x = .ok ws → ∃ rows : List Exchange,
      l = past ++ rows ∧ (∀ y ∈ rows, isGet y.1 = false) ∧
        List.Forall₂ (fun r row => Writes c p r row.1 row.2) (results.filter fun r => (verdict r).isSome)
          (rows.filterMap written)) past := by
  induction results generalizing past with
  | nil => exact fun ws _ => ⟨[], (List.append_nil _).symm, by simp, .nil⟩
  | cons r rest ih =>
    have hrest : ∀ r ∈ rest, ∃ b ∈ c.bindings, r = verification c.policy c.probes resolved b := fun r hr =>
      hresults r (List.mem_cons_of_mem _ hr)
    rw [recordRealizations]
    cases hverdict : verdict r with
    | none =>
      rw [List.filter_cons_of_neg (by simp [hverdict])]
      exact ih hkeys hrest
    | some status =>
      rw [List.filter_cons_of_pos (by simp [hverdict])]
      refine Throwing.meets_lift (fun e _ ws hws => by cases hws) fun slug hslug => ?_
      refine Throwing.meets_lift (fun e _ ws hws => by cases hws) fun id hid => ?_
      obtain ⟨b, hb, hr⟩ := hresults r List.mem_cons_self
      have hwrites : Writes c p r id (realization c p r.candidateId slug status) :=
        ⟨status, slug, hverdict, hslug, hid, rfl⟩
      refine meets_vaultCall ⟨p, resolved, b, hp, hkeys, hb, hr ▸ hwrites⟩ (fun f e ws hws => by cases hws)
        fun w => ?_
      refine Throwing.meets_bind (ih (hkeys.append (by simp [isGet])) hrest) (fun l e _ ws hws => by cases hws) ?_
      intro l others hothers ws _
      obtain ⟨rows, rfl, happends, hrows⟩ := hothers others rfl
      refine ⟨_ :: rows, by rw [List.append_assoc, List.singleton_append], ?_, ?_⟩
      · exact List.forall_mem_cons.mpr ⟨rfl, happends⟩
      · exact List.Forall₂.cons hwrites hrows

lemma verify_meets (c : VerifyCall) : (verify c).run.Meets (Asks c) (Ends c) [] := by
  refine Throwing.meets_lift (fun e _ => trivial) fun _ _ => ?_
  refine Throwing.meets_bind (resolveEvidence_meets c (by simp)) (fun _ _ _ => trivial) ?_
  rintro answers ⟨resolved, notes⟩ ⟨_, _, _, hx, rfl, hqs, hkeys⟩
  cases hx
  refine meets_vaultCall trivial (fun _ _ => trivial) fun rev => ?_
  have hkeys' : ∀ promo : Exchange, isGet promo.1 = false → Keys (answers ++ [promo]) resolved := fun promo hp =>
    hkeys.append (by simpa using hp)
  have hasked : ∀ more : List Exchange, (∀ x ∈ more, isGet x.1 = false) → ∀ r,
      (∃ a, (⟨lookup r, a⟩ : Exchange) ∈ answers ++ more) ↔ r ∈ uniqueRefs (c.probes.flatMap Probe.evidence) := by
    intro more hmore r
    rw [← List.mem_map_of_injective lookup_injective, ← hqs, List.mem_map]
    constructor
    · rintro ⟨a, ha⟩
      obtain hin | hin := List.mem_append.mp ha
      · exact ⟨_, hin, rfl⟩
      · cases hmore _ hin
    · rintro ⟨⟨q, a⟩, hx, rfl⟩
      exact ⟨a, List.mem_append_left _ hx⟩
  have hgets : answers.filterMap written = [] := by
    apply List.filterMap_eq_nil_iff.mpr
    intro x hx
    have hmem : x.1 ∈ (uniqueRefs (c.probes.flatMap Probe.evidence)).map lookup := hqs ▸ List.mem_map_of_mem hx
    obtain ⟨r, _, hr⟩ := List.mem_map.mp hmem
    rw [written, ← hr]
    rfl
  cases hp : c.provider with
  | none =>
    refine ⟨resolved, hkeys' _ rfl, hasked _ (by simp [isGet]), rfl, rfl, ?_⟩
    rw [Rows, hp]
    simp [hgets, written]
  | some p =>
    refine Throwing.meets_bind (recordRealizations_meets hp (hkeys' _ rfl) ?_) (fun _ _ _ => trivial) ?_
    · intro r hr
      obtain ⟨b, hb, rfl⟩ := List.mem_map.mp hr
      exact ⟨b, hb, rfl⟩
    · intro l ws hws
      obtain ⟨rows, rfl, happends, hrows⟩ := hws ws rfl
      refine ⟨resolved, (hkeys' _ rfl).append happends, ?_, rfl, rfl, ?_⟩
      · rw [List.append_assoc]
        exact hasked _ (List.forall_mem_cons.mpr ⟨rfl, happends⟩)
      · rw [Rows, hp, List.filterMap_append, List.filterMap_append, hgets]
        exact hrows

end Gate

end VivimOmega.Discovery

import VivimOmega.Law.Consent
import VivimOmega.Law.Forbidden
import VivimOmega.Library.Collect

/-! The live gate: the shipped policy with the consents, under the overlay of what is forbidden. -/

namespace VivimOmega.Law

open Library Library.Json

section Shipped

/-- An action that names a decision and gives its reason in words. -/
def Spoken (action : Value) : Prop :=
  (∃ d, property action "decision" = .ok d) ∧ ∃ r, optionalProperty action "reason" = .string r

lemma spoken_actionOf (decision : Value) (reason : String) : Spoken (actionOf decision (jsText reason)) :=
  ⟨⟨decision, rfl⟩, ofText reason, rfl⟩

lemma ruleMatches_principal (value decision reason : String) (principal op : JsString) :
    ruleMatches (policyRule "principal" value decision reason) principal op =
      .ok (decide (ofText value = principal)) := by
  change (if ofText value = principal then (.ok true : Except String Bool) else .ok false) = _
  split_ifs with h <;> simp [h]

lemma ruleMatches_op (value decision reason : String) (principal op : JsString) :
    ruleMatches (policyRule "op" value decision reason) principal op = .ok (opMatches (ofText value) op) :=
  rfl

/-- A class for which the shipped document has a default. -/
def Classed (risk : Value) : Prop := ∃ action, index riskDefaults risk = .ok action ∧ Spoken action

lemma classed_read : Classed (jsText "READ") := ⟨_, rfl, ⟨_, rfl⟩, _, rfl⟩

lemma classed_mutation : Classed (jsText "MUTATION") := ⟨_, rfl, ⟨_, rfl⟩, _, rfl⟩

lemma classed_external : Classed (jsText "EXTERNAL_MUTATION") := ⟨_, rfl, ⟨_, rfl⟩, _, rfl⟩

section Classes

variable {P : Value → Prop} (hread : P (jsText "READ")) (hmutation : P (jsText "MUTATION"))
  (hexternal : P (jsText "EXTERNAL_MUTATION"))

lemma readRiskEntry_riskRow (op : String) {risk : String} (h : P (jsText risk)) :
    ∃ r, readRiskEntry (riskRow op risk) = .ok r ∧ P r.risk :=
  ⟨⟨ofText op, jsText risk⟩, rfl, h⟩

include hread hmutation hexternal in
lemma readRiskEntry_shipped : ∀ row ∈ riskTable, ∃ r, readRiskEntry row = .ok r ∧ P r.risk := by
  simp only [riskTable, List.forall_mem_cons]
  refine ⟨?_, ?_, ?_, ?_, ?_, ?_, ?_, ?_, ?_, ?_, ?_, ?_, ?_, ?_, ?_, ?_, ?_, ?_, ?_, nofun⟩
  all_goals first
    | exact readRiskEntry_riskRow _ hexternal
    | exact readRiskEntry_riskRow _ hmutation
    | exact readRiskEntry_riskRow _ hread

lemma lookupRisk_forall {idx : CompiledRiskIndex} {defaultRisk : Value} {op : JsString}
    (hexact : ∀ r ∈ idx.exact, P r.risk) (hprefixes : ∀ r ∈ idx.prefixes, P r.risk)
    (hdefault : P defaultRisk) : P (lookupRisk idx defaultRisk op) := by
  unfold lookupRisk
  split
  · next risk hfound =>
    obtain ⟨hfind, _⟩ := Option.filter_eq_some_iff.mp hfound
    obtain ⟨r, hr, rfl⟩ := Option.map_eq_some_iff.mp hfind
    exact hexact r (List.mem_of_find?_eq_some hr)
  · split
    · next r hr => exact hprefixes r (List.mem_of_find?_eq_some hr)
    · exact hdefault

include hread hmutation hexternal in
/-- What holds of the three classes of the shipped document holds of the class of every op. -/
lemma classifyRisk_shipped (op : JsString) : ∃ risk, classifyRisk LAW_POLICY_V1 op = .ok risk ∧ P risk := by
  obtain ⟨entries, hentries, hclassed⟩ := mapM_exists (readRiskEntry_shipped hread hmutation hexternal)
  have hidx : riskIndex LAW_POLICY_V1 = .ok ⟨entries.filter fun r => !endsWithStar r.op,
      (entries.filter fun r => endsWithStar r.op).insertionSort fun a b => b.op.length ≤ a.op.length⟩ := by
    have htable : property LAW_POLICY_V1 "riskTable" = .ok (.array riskTable) := rfl
    have hrows : iterate (.array riskTable) = .ok riskTable := rfl
    rw [riskIndex, htable, ok_bind, hrows, ok_bind, hentries]
    rfl
  refine ⟨_, by rw [classifyRisk, hidx]; rfl, lookupRisk_forall ?_ ?_ hexternal⟩
  · exact fun r hr => hclassed r (List.mem_filter.mp hr).1
  · intro r hr
    have hmem := (List.perm_insertionSort _ _).mem_iff.mp hr
    exact hclassed r (List.mem_filter.mp hmem).1

end Classes

def attackerRule : Value :=
  policyRule "principal" "omega.attacker" "deny" "principal deny-listed (adversarial fixture, Ω0 runtime suite)"

def credentialReason : String :=
  "storing a credential is the security-sensitive bar — consent required even though the class is " ++
    "vault-internal (D-356)"

def credentialRule : Value := policyRule "op" "credential.put@1" "require-consent" credentialReason

lemma firstMatch_deny (principal op : JsString) : firstMatch true principal op rules =
    .ok (if ofText "omega.attacker" = principal then some attackerRule else none) := by
  have hstep : firstMatch true principal op rules = do
      let found ← ruleMatches attackerRule principal op
      if found then return some attackerRule else return none := rfl
  rw [hstep, attackerRule, ruleMatches_principal]
  split_ifs with h
  · rw [decide_eq_true h]
    rfl
  · rw [decide_eq_false h]
    rfl

lemma firstMatch_other (principal op : JsString) : firstMatch false principal op rules =
    .ok (if opMatches (ofText "credential.put@1") op then some credentialRule else none) := by
  have hstep : firstMatch false principal op rules = do
      let found ← ruleMatches credentialRule principal op
      if found then return some credentialRule else return none := rfl
  rw [hstep, credentialRule, ruleMatches_op]
  cases opMatches (ofText "credential.put@1") op <;> rfl

/-- The shipped policy decides every call, and says why. -/
lemma evalPolicy_shipped (principal op : JsString) :
    ∃ action, evalPolicy LAW_POLICY_V1 principal op = .ok action ∧ Spoken action := by
  obtain ⟨risk, hrisk, action, haction, hspoken⟩ :=
    classifyRisk_shipped classed_read classed_mutation classed_external op
  have hrules : property LAW_POLICY_V1 "rules" = .ok (.array rules) := rfl
  have hrows : iterate (.array rules) = .ok rules := rfl
  have hdefaults : optionalProperty LAW_POLICY_V1 "riskDefaults" = riskDefaults := rfl
  rw [evalPolicy, hrules, ok_bind, hrows, ok_bind, firstMatch_deny, firstMatch_other, hrisk, hdefaults]
  by_cases hdeny : ofText "omega.attacker" = principal
  · rw [if_pos hdeny]
    exact ⟨_, rfl, spoken_actionOf _ _⟩
  · rw [if_neg hdeny]
    by_cases hother : opMatches (ofText "credential.put@1") op = true
    · rw [if_pos hother]
      exact ⟨_, rfl, spoken_actionOf _ credentialReason⟩
    · rw [if_neg hother]
      exact ⟨action, haction, hspoken⟩

/-- The shipped policy denies nothing but to the principal that it lists. -/
lemma evalPolicy_undenied {principal : JsString} (h : ofText "omega.attacker" ≠ principal) (op : JsString) :
    ∃ action, evalPolicy LAW_POLICY_V1 principal op = .ok action ∧
      isText (optionalProperty action "decision") "deny" = false := by
  obtain ⟨risk, hrisk, action, haction, hundenied⟩ := classifyRisk_shipped
    (P := fun risk => ∃ action, index riskDefaults risk = .ok action ∧
      isText (optionalProperty action "decision") "deny" = false)
    ⟨_, rfl, by decide⟩ ⟨_, rfl, by decide⟩ ⟨_, rfl, by decide⟩ op
  have hrules : property LAW_POLICY_V1 "rules" = .ok (.array rules) := rfl
  have hrows : iterate (.array rules) = .ok rules := rfl
  have hdefaults : optionalProperty LAW_POLICY_V1 "riskDefaults" = riskDefaults := rfl
  rw [evalPolicy, hrules, ok_bind, hrows, ok_bind, firstMatch_deny, firstMatch_other, hrisk, hdefaults, if_neg h]
  by_cases hother : opMatches (ofText "credential.put@1") op = true
  · rw [if_pos hother]
    exact ⟨_, rfl, by decide⟩
  · rw [if_neg hother]
    exact ⟨action, haction, hundenied⟩

end Shipped

section Decisions

/-- The decision of `law.check@1`: the overlay of what is forbidden precedes the policy. -/
def gate (consents : ConsentTable) (forbidden : ForbiddenTable) (principal op : JsString) :
    Except String Resolved := do
  let primary ← resolve LAW_POLICY_V1 consents principal op
  if forbidden.isForbidden principal op then
    return ⟨jsText "deny", .string (ofText "forbidden action for principal \"" ++ principal ++
      ofText "\" (behavior-contract policy overlay)"), .bool true, none⟩
  else return primary

def gateDecision (consents : ConsentTable) (forbidden : ForbiddenTable) (principal op : JsString) :
    Except String Value :=
  (gate consents forbidden principal op).map Resolved.decision

/-- The policy asks for a consent, and the overlay does not deny the call before. -/
def AsksConsent (forbidden : ForbiddenTable) (principal op : JsString) : Prop :=
  forbidden.isForbidden principal op = false ∧
    ∃ action, evalPolicy LAW_POLICY_V1 principal op = .ok action ∧
      isText (optionalProperty action "decision") "require-consent" = true

variable (consents consents' : ConsentTable) (forbidden : ForbiddenTable) {principal op : JsString}
  {action : Value}

lemma resolve_shipped (h : evalPolicy LAW_POLICY_V1 principal op = .ok action) :
    ∃ r, resolve LAW_POLICY_V1 consents principal op = .ok r ∧
      r.decision = if isText (optionalProperty action "decision") "require-consent" then
          if (consents.hasMatchingGrant principal op).isSome then jsText "allow" else jsText "require-consent"
        else optionalProperty action "decision" := by
  obtain ⟨found, hfound, ⟨d, hd⟩, reason, hreason⟩ := evalPolicy_shipped principal op
  obtain rfl : found = action := Except.ok.inj (hfound.symm.trans h)
  have hdecision : optionalProperty found "decision" = d := by
    rw [optionalProperty, hd]
  rw [resolve, h, ok_bind, hd, ok_bind, hdecision, hreason]
  cases hask : isText d "require-consent" with
  | false => exact ⟨_, rfl, rfl⟩
  | true =>
    cases hgrant : consents.hasMatchingGrant principal op with
    | none => exact ⟨_, rfl, rfl⟩
    | some grant => exact ⟨_, rfl, rfl⟩

lemma gateDecision_eq (h : evalPolicy LAW_POLICY_V1 principal op = .ok action) :
    gateDecision consents forbidden principal op =
      .ok (if forbidden.isForbidden principal op then jsText "deny"
        else if isText (optionalProperty action "decision") "require-consent" then
          if (consents.hasMatchingGrant principal op).isSome then jsText "allow" else jsText "require-consent"
        else optionalProperty action "decision") := by
  obtain ⟨r, hr, hdecision⟩ := resolve_shipped consents h
  rw [gateDecision, gate, hr, ok_bind, ← hdecision]
  cases forbidden.isForbidden principal op <;> rfl

/-- A consent table decides nothing but whether the consents that are asked for are there. -/
lemma gateDecision_eq_iff (principal op : JsString) :
    gateDecision consents forbidden principal op = gateDecision consents' forbidden principal op ↔
      (AsksConsent forbidden principal op → ((consents.hasMatchingGrant principal op).isSome ↔
        (consents'.hasMatchingGrant principal op).isSome)) := by
  obtain ⟨action, haction, _⟩ := evalPolicy_shipped principal op
  have hasks : AsksConsent forbidden principal op ↔ forbidden.isForbidden principal op = false ∧
      isText (optionalProperty action "decision") "require-consent" = true := by
    refine and_congr_right fun _ => ⟨?_, fun hask => ⟨action, haction, hask⟩⟩
    rintro ⟨found, hfound, hask⟩
    obtain rfl : found = action := Except.ok.inj (hfound.symm.trans haction)
    exact hask
  have hne : jsText "allow" ≠ jsText "require-consent" := by
    intro h
    exact absurd (Value.string.inj h) (by decide)
  rw [gateDecision_eq consents forbidden haction, gateDecision_eq consents' forbidden haction, hasks]
  cases forbidden.isForbidden principal op with
  | true => simp
  | false =>
    cases isText (optionalProperty action "decision") "require-consent" with
    | false => simp
    | true =>
      cases (consents.hasMatchingGrant principal op).isSome <;>
        cases (consents'.hasMatchingGrant principal op).isSome <;> simp [hne, hne.symm]

end Decisions

end VivimOmega.Law

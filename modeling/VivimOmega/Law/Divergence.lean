import VivimOmega.Law.Amendment

/-! The ledger of divergences that a shadow policy leaves over a run. -/

namespace VivimOmega.Law

open Library Library.Json

section Reports

structure ShadowStatus where
  policyId : Value
  version : Value
  description : Value
  registeredAt : Number

def AMENDMENT_SWAP_NOTE : String :=
  "shadow policies never swap live policy; the amendment is a recipe re-compile + atomic pin swap (host ceremony, D-213)"

structure AmendmentReport where
  shadow : Option ShadowStatus
  divergences : List DivergenceRecord
  count : ℕ
  swap : String

namespace ShadowAmendment

variable (a : ShadowAmendment)

def status : Option ShadowStatus := a.shadow.map fun stored =>
  ⟨optionalProperty stored "policyId", optionalProperty stored "version", optionalProperty stored "description",
    a.registeredAt⟩

def report : AmendmentReport := ⟨a.status, a.divergences, a.divergences.length, AMENDMENT_SWAP_NOTE⟩

/-- `this.shadow?.policyId ?? "none"` -/
def shadowPolicyId : Value :=
  match a.shadow.map fun stored => optionalProperty stored "policyId" with
  | none | some .undefined | some .null => jsText "none"
  | some id => id

/-- What `observe` pushes. -/
def divergence (principal op causationId : JsString) (primary shadowed : Resolved) (now : Number) :
    Option DivergenceRecord :=
  if sameDecision primary.decision shadowed.decision then none
  else some ⟨now, principal, op, causationId, (primary.decision, primary.reason),
    (shadowed.decision, shadowed.reason), a.shadowPolicyId⟩

lemma observe_eq (principal op causationId : JsString) (primary shadowed : Resolved) (now : Number) :
    a.observe principal op causationId primary shadowed now = { a with divergences :=
      a.divergences ++ (a.divergence principal op causationId primary shadowed now).toList } := by
  rw [observe, divergence]
  split_ifs
  · simp
  · rfl

end ShadowAmendment

end Reports

section Comparisons

/-- A check with its primary decision resolved by `live`, and the divergence of the shadow's from it. -/
def comparison (live : Ceremonies → JsString → JsString → Except String Resolved) (s : LawState) (payload : Value)
    (causationId : JsString) (now : Number) : Except String (Option DivergenceRecord) := do
  let p := asObj payload
  let principal := str (optionalProperty p "principal")
  let op := str (optionalProperty p "op")
  let causationId := (optStr (optionalProperty p "causationId")).getD causationId
  let primary ← live s.gate principal op
  let shadowDoc ← s.amendment.doc
  match shadowDoc with
  | none => return none
  | some doc => do
    let shadowed ← resolve doc s.gate.consents principal op
    return s.amendment.divergence principal op causationId primary shadowed now

def compared (live : Ceremonies → JsString → JsString → Except String Resolved) : LawState × LawEvent → Option DivergenceRecord
  | (s, .check payload causationId now) => (comparison live s payload causationId now).toOption.join
  | _ => none

/-- The live document and the shadow, resolved for a check under the same consents. -/
def policyDivergence : LawState × LawEvent → Option DivergenceRecord :=
  compared fun g principal op => resolve LAW_POLICY_V1 g.consents principal op

/-- A check of what the overlay forbids. -/
def Overlaid : LawState × LawEvent → Prop
  | (s, .check payload _ _) => s.gate.forbidden.isForbidden (str (optionalProperty (asObj payload) "principal"))
      (str (optionalProperty (asObj payload) "op")) = true
  | _ => False

/-- A registration that is carried out. -/
def registers : LawState × LawEvent → Bool
  | (s, .amendment payload now) =>
    decide (str (optionalProperty (asObj payload) "action") = ofText "register-shadow") &&
      (amend s.amendment payload now).toOption.isSome
  | _ => false

/-- What a run has done since the last registration. -/
def sinceRegistration (steps : List (LawState × LawEvent)) : List (LawState × LawEvent) :=
  steps.rtakeWhile fun x => !registers x

/-- A shadow that decides as the live policy does, whatever consents are there. -/
def Equivalent (s : LawState) : Prop := ∀ doc, s.amendment.doc = .ok (some doc) → ∀ consents principal op,
  (resolve doc consents principal op).map Resolved.decision =
    (resolve LAW_POLICY_V1 consents principal op).map Resolved.decision

variable {s : LawState} {e : LawEvent} {x : LawState × LawEvent}

lemma lawStep_check (s : LawState) (payload : Value) (causationId : JsString) (now : Number) :
    (lawStep s (.check payload causationId now)).amendment = { s.amendment with divergences := s.amendment.divergences ++
      (compared (fun g => gate g.consents g.forbidden) (s, .check payload causationId now)).toList } := by
  rw [lawStep, lawCheck, compared, comparison]
  cases gate s.gate.consents s.gate.forbidden (str (optionalProperty (asObj payload) "principal"))
      (str (optionalProperty (asObj payload) "op")) with
  | error err => simp [Except.toOption, bind, Except.bind]
  | ok primary =>
    rw [ok_bind, ok_bind]
    cases s.amendment.doc with
    | error err => simp [Except.toOption, bind, Except.bind]
    | ok shadowDoc =>
      rw [ok_bind, ok_bind]
      cases shadowDoc with
      | none => simp [Except.toOption, pure, Except.pure]
      | some doc =>
        dsimp only
        cases resolve doc s.gate.consents (str (optionalProperty (asObj payload) "principal"))
            (str (optionalProperty (asObj payload) "op")) with
        | error err => simp [Except.toOption, bind, Except.bind]
        | ok shadowed =>
          rw [ok_bind, ok_bind]
          exact s.amendment.observe_eq _ _ _ _ _ _

/-- A registration starts a ledger, and nothing else but a check changes it. -/
lemma amend_divergences (s : LawState) (payload : Value) (now : Number) :
    (lawStep s (.amendment payload now)).amendment.divergences =
      if registers (s, .amendment payload now) then [] else s.amendment.divergences := by
  rw [lawStep, registers]
  unfold amend
  dsimp only
  by_cases hregister : str (optionalProperty (asObj payload) "action") = ofText "register-shadow"
  · rw [if_pos hregister, decide_eq_true hregister, Bool.true_and]
    split_ifs with hkeys hok hok
    · cases hok
    · rfl
    · cases hspec : normalizeShadowSpec LAW_POLICY_V1 (asObj (optionalProperty (asObj payload) "policy")) with
      | error err =>
        rw [ShadowAmendment.registerShadow, hspec] at hok
        cases hok
      | ok doc =>
        rw [ShadowAmendment.registerShadow, hspec]
        rfl
    · cases hnew : ShadowAmendment.registerShadow (asObj (optionalProperty (asObj payload) "policy")) now with
      | error err => rfl
      | ok a =>
        rw [hnew] at hok
        exact absurd rfl hok
  · rw [if_neg hregister, decide_eq_false hregister, Bool.false_and, if_neg Bool.false_ne_true]
    split_ifs <;> rfl

lemma lawStep_divergences (s : LawState) (e : LawEvent) : (lawStep s e).amendment.divergences =
    if registers (s, e) then [] else
      s.amendment.divergences ++ (compared (fun g => gate g.consents g.forbidden) (s, e)).toList := by
  cases e with
  | ceremony e => simp [lawStep, registers, compared]
  | amendment payload now =>
    rw [amend_divergences]
    simp [compared]
  | check payload causationId now =>
    rw [lawStep_check]
    rfl

lemma overlay_silent (h : ¬ Overlaid x) :
    compared (fun g => gate g.consents g.forbidden) x = policyDivergence x := by
  obtain ⟨s, e⟩ := x
  cases e with
  | ceremony e => rfl
  | amendment payload now => rfl
  | check payload causationId now =>
    have hgate : gate s.gate.consents s.gate.forbidden (str (optionalProperty (asObj payload) "principal"))
        (str (optionalProperty (asObj payload) "op")) = resolve LAW_POLICY_V1 s.gate.consents
          (str (optionalProperty (asObj payload) "principal")) (str (optionalProperty (asObj payload) "op")) := by
      rw [gate]
      simp only [Overlaid, Bool.not_eq_true] at h
      simp only [h, Bool.false_eq_true, if_false]
      exact bind_pure _
    rw [policyDivergence, compared, compared, comparison, comparison, hgate]

lemma unregistered_silent {live : Ceremonies → JsString → JsString → Except String Resolved}
    (h : x.1.amendment.shadow = none) : compared live x = none := by
  obtain ⟨s, e⟩ := x
  cases e with
  | ceremony e => rfl
  | amendment payload now => rfl
  | check payload causationId now =>
    rw [compared, comparison, ShadowAmendment.doc, h]
    cases live s.gate (str (optionalProperty (asObj payload) "principal"))
        (str (optionalProperty (asObj payload) "op")) <;> rfl

/-- The shipped policy decides in words. -/
lemma evalPolicy_worded (principal op : JsString) : ∃ action, evalPolicy LAW_POLICY_V1 principal op = .ok action ∧
    ∃ d, optionalProperty action "decision" = .string d := by
  obtain ⟨risk, hrisk, action, haction, hworded⟩ := classifyRisk_shipped
    (P := fun risk => ∃ action, index riskDefaults risk = .ok action ∧
      ∃ d, optionalProperty action "decision" = .string d)
    ⟨_, rfl, _, rfl⟩ ⟨_, rfl, _, rfl⟩ ⟨_, rfl, _, rfl⟩ op
  have hrules : property LAW_POLICY_V1 "rules" = .ok (.array rules) := rfl
  have hrows : iterate (.array rules) = .ok rules := rfl
  have hdefaults : optionalProperty LAW_POLICY_V1 "riskDefaults" = riskDefaults := rfl
  rw [evalPolicy, hrules, ok_bind, hrows, ok_bind, firstMatch_deny, firstMatch_other, hrisk, hdefaults]
  by_cases hdeny : ofText "omega.attacker" = principal
  · rw [if_pos hdeny]
    exact ⟨_, rfl, _, rfl⟩
  · rw [if_neg hdeny]
    by_cases hother : opMatches (ofText "credential.put@1") op = true
    · rw [if_pos hother]
      exact ⟨_, rfl, _, rfl⟩
    · rw [if_neg hother]
      exact ⟨action, haction, hworded⟩

lemma resolve_worded (consents : ConsentTable) (principal op : JsString) :
    ∃ r d, resolve LAW_POLICY_V1 consents principal op = .ok r ∧ r.decision = .string d := by
  obtain ⟨action, haction, d, hd⟩ := evalPolicy_worded principal op
  obtain ⟨r, hr, hdecision⟩ := resolve_shipped consents haction
  rw [hd] at hdecision
  split_ifs at hdecision
  · exact ⟨r, _, hr, hdecision⟩
  · exact ⟨r, _, hr, hdecision⟩
  · exact ⟨r, d, hr, hdecision⟩

lemma equivalent_silent (h : Equivalent x.1) : policyDivergence x = none := by
  obtain ⟨s, e⟩ := x
  cases e with
  | ceremony e => rfl
  | amendment payload now => rfl
  | check payload causationId now =>
    obtain ⟨live, d, hlive, hd⟩ := resolve_worded s.gate.consents (str (optionalProperty (asObj payload) "principal"))
      (str (optionalProperty (asObj payload) "op"))
    rw [policyDivergence, compared, comparison, hlive, ok_bind]
    cases hdoc : s.amendment.doc with
    | error err => rfl
    | ok shadowDoc =>
      cases shadowDoc with
      | none => rfl
      | some doc =>
        have hsame := h doc hdoc s.gate.consents (str (optionalProperty (asObj payload) "principal"))
          (str (optionalProperty (asObj payload) "op"))
        rw [hlive] at hsame
        rw [ok_bind]
        dsimp only
        cases hshadow : resolve doc s.gate.consents (str (optionalProperty (asObj payload) "principal"))
            (str (optionalProperty (asObj payload) "op")) with
        | error err => rfl
        | ok shadowed =>
          rw [hshadow] at hsame
          have hdecision : shadowed.decision = live.decision := Except.ok.inj hsame
          rw [ok_bind, ShadowAmendment.divergence, hdecision, hd]
          simp [ShadowAmendment.sameDecision, Except.toOption, pure, Except.pure]

end Comparisons

section Runs

lemma visited_concat {σ ε α : Type} (M : Reactor σ ε α) (s : σ) (es : List ε) (e : ε) :
    M.visited s (es ++ [e]) = M.visited s es ++ [(es.foldl M.step s, e)] := by
  induction es generalizing s with
  | nil => rfl
  | cons first es ih =>
    simp only [List.cons_append, Reactor.visited, List.foldl_cons]
    rw [ih]

/-- The ledger is what the checks since the registration have left. -/
lemma ledger_run (g : Ceremonies) (es : List LawEvent) :
    (es.foldl lawStep ⟨g, ⟨none, .zero, []⟩⟩).amendment.divergences =
      (sinceRegistration (law.visited ⟨g, ⟨none, .zero, []⟩⟩ es)).filterMap
        (compared fun g => gate g.consents g.forbidden) := by
  induction es using List.reverseRecOn with
  | nil => rfl
  | append_singleton es e ih =>
    rw [List.foldl_append, List.foldl_cons, List.foldl_nil, lawStep_divergences, visited_concat, sinceRegistration,
      List.rtakeWhile_concat]
    change _ = List.filterMap _ (if !registers (es.foldl lawStep _, e) then _ else _)
    cases registers (es.foldl lawStep ⟨g, ⟨none, .zero, []⟩⟩, e) with
    | true => rfl
    | false =>
      rw [if_neg Bool.false_ne_true, Bool.not_false, if_pos rfl, List.filterMap_append, ih]
      rfl

def clearShadowPayload : Value := .object [(ofText "action", jsText "clear-shadow")]

def registerPayload (spec : List (JsString × Value)) : Value :=
  .object [(ofText "action", jsText "register-shadow"), (ofText "policy", .object spec)]

/-- The live policy under another description. -/
def renamedShadow : Value := registerPayload [(ofText "description", jsText "same")]

def externalCheck : Value :=
  .object [(ofText "principal", .string userAlice), (ofText "op", jsText "risky.op@1")]

/-- A shadow that decides otherwise, and is cleared. -/
def clearedRun : List LawEvent :=
  [.amendment (registerPayload [(ofText "denyExternalMutations", .bool true)]) .zero,
    .check externalCheck (ofText "c1") .zero, .amendment clearShadowPayload .zero]

lemma append_named : ofText "vault.append@1" ≠ [] := by decide

def noAppends : ForbiddenTable := OrderedMap.empty.set userAlice ⟨[ofText "vault.append@1"], one_listed append_named⟩

/-- A shadow that decides the same, beside a check of what is forbidden. -/
def overlaidRun : List LawEvent :=
  [.ceremony (.overlay noAppends), .amendment renamedShadow .zero, .check checkPayload (ofText "c1") .zero]

lemma overlaidRun_agrees : ∀ x ∈ law.visited noAmendment overlaidRun, policyDivergence x = none := by
  have hagree : (law.visited noAmendment overlaidRun).all (fun x => (policyDivergence x).isNone) = true := by
    decide
  intro x hx
  exact Option.isNone_iff_eq_none.mp (List.all_eq_true.mp hagree x hx)

end Runs

end VivimOmega.Law

import VivimOmega.Agent.Spawn

/-! One agent acts once: what has to hold before the target is called, and the row that the attempt leaves. -/

namespace VivimOmega.Agent

open Library Library.Json Law

section Scopes

inductive ExecCallScope
  | scope (scope : JsString)
  | unsupported (op : JsString)
  | unattributable (op : JsString)

/-- `<base>:ns=<ns>` -/
def callScopeText (base ns : JsString) : JsString := base ++ colon :: (ofText "ns=" ++ ns)

def execCallScope (op : JsString) (payload : Value) : Except String ExecCallScope :=
  match nameAtVersion op with
  | none => do
    let text ← stringify (.string op)
    throw ("agent.exec@1: op must look like <id>@<version> (got " ++ text ++ ")")
  | some base =>
    if (ofText "vault.").isPrefixOf base then
      match optionalProperty payload "ns" with
      | .string (u :: rest) => return .scope (callScopeText base (u :: rest))
      | _ => return .unattributable op
    else return .unsupported op

structure ExecAdmission where
  admittable : Bool
  reason : String

def decideExecAdmission (contract : BehaviorContract) (identity : AgentIdentity) : ExecAdmission :=
  if contract.state ≠ .active then
    ⟨false, "behavior contract is \"" ++ contract.state.text ++ "\", not active"⟩
  else if identity.state = .quarantined ∨ identity.state = .retired then
    ⟨false, "agent identity is \"" ++ identity.state.text ++ "\" (terminal)"⟩
  else if identity.behaviorVersion ≠ contract.version then
    ⟨false, "agent pinned to behavior version \"" ++ toText identity.behaviorVersion ++ "\" but head is \"" ++
      toText contract.version ++ "\" (quarantined-mid-flight refusal)"⟩
  else ⟨true, "admitted"⟩

def execQuarantinedMidFlight (admittedRev : ℕ) (admittedVersion : JsString) (post : Option (ℕ × BehaviorContract)) :
    Bool :=
  match post with
  | none => true
  | some (headRev, head) => headRev ≠ admittedRev || head.version ≠ admittedVersion || head.state ≠ .active

end Scopes

section Attempts

structure ExecInput where
  agentId : JsString
  op : JsString
  payload : Value
  realizationRef : Option VaultProvenanceRef

structure ExecRow where
  agentId : JsString
  op : JsString
  callScope : Option JsString
  decision : String
  reason : Option String
  admittedContractRev : ℕ
  realizationRef : Option VaultProvenanceRef
  quarantinedMidFlight : Bool
  callOk : Bool
  result : Option Value

/-- An append that is reported failed may have been made. -/
inductive AppendReply
  | ok (rev : ℕ)
  | failed (applied : Bool) (err : String)

/-- What the port calls of an attempt come back with, whatever else goes on meanwhile. -/
structure ExecReplies where
  agent : Option AgentIdentity
  head : Option (ℕ × BehaviorContract)
  realization : Option Value
  gate : Except String Value
  target : Except (String × String) Value
  post : Option (ℕ × BehaviorContract)
  append : AppendReply

structure ExecValue where
  result : Value
  ledgerRev : ℕ
  admittedContractRev : ℕ
  quarantinedMidFlight : Bool

/-- What an attempt has done: the target that it called, the row that it left, and its answer. -/
structure Attempt where
  target : Option (JsString × Value)
  row : Option ExecRow
  result : Except String (Outcome ExecValue)

/-- Before the target is called: refused with a row, or on with the call scope. -/
inductive Verdict
  | refuse (row : ExecRow) (status : FailStatus) (reason : String)
  | go (scope : JsString)

variable (r : ExecReplies) (input : ExecInput) (identity : AgentIdentity) (rev : ℕ) (head : BehaviorContract)

def refusedRow (callScope : Option JsString) (decision reason : String) (quarantined : Bool) : ExecRow :=
  ⟨input.agentId, input.op, callScope, decision, some reason, rev, input.realizationRef, quarantined, false, none⟩

/-- `v ?? w` -/
def coalesce (v w : Value) : Value :=
  match v with
  | .undefined => w
  | .null => w
  | _ => v

/-- A cited realization must resolve and be promoted. -/
def judgeRealization (scope : JsString) : Option Verdict :=
  match input.realizationRef with
  | none => none
  | some cited =>
    match r.realization with
    | none => some (.refuse (refusedRow input rev (some scope) "refused:realization"
        ("realization ref " ++ toText cited.ns ++ "/" ++ toText cited.id ++ "@" ++ toString cited.rev ++
          " does not resolve") false) .unknown "cited realization does not resolve (proof, not confidence)")
    | some data =>
      let status := optionalProperty data "status"
      if isText status "PROMOTED" then none
      else some (.refuse (refusedRow input rev (some scope) "refused:realization"
        ("realization " ++ toText cited.id ++ "@" ++ toString cited.rev ++ " is \"" ++ jsString status ++
          "\", not PROMOTED") false) .refused
            ("realization is \"" ++ jsString status ++ "\", not PROMOTED — proof promotes"))

/-- Admission, call scope, realization and the law's check for the agent, in this order. -/
def judge : Except String Verdict :=
  let admission := decideExecAdmission head identity
  if !admission.admittable then
    return .refuse (refusedRow input rev none "refused:admission" admission.reason (head.state ≠ .active)) .refused
      ("agent.exec refused admission: " ++ admission.reason)
  else do
    match ← execCallScope input.op input.payload with
    | .unsupported op =>
      let reason := "op \"" ++ toText op ++ "\" is outside the v0 exec verb scope (vault.* only — B1b widens)"
      return .refuse (refusedRow input rev none "unsupported" reason false) .unsupported ("agent.exec: " ++ reason)
    | .unattributable op =>
      let reason := "op \"" ++ toText op ++ "\" carries no attributable payload ns (call scope underivable)"
      return .refuse (refusedRow input rev none "unattributable" reason false) .unsupported ("agent.exec: " ++ reason)
    | .scope scope =>
      if within scope identity.capabilityToken then
        match judgeRealization r input rev scope with
        | some refusal => return refusal
        | none => do
          let decision ← r.gate
          let verdict := optionalProperty decision "decision"
          let reason := optionalProperty decision "reason"
          if isText verdict "deny" || isText verdict "require-consent" then
            return .refuse (refusedRow input rev (some scope) "refused:forbidden"
              ("law.check for \"" ++ toText input.agentId ++ "\" → " ++ jsString verdict ++ ": " ++
                jsString (coalesce reason (.string []))) false)
              .refused ("law denies this call for " ++ toText input.agentId ++ ": " ++ jsString (coalesce reason verdict))
          else return .go scope
      else
        return .refuse (refusedRow input rev (some scope) "refused:scope"
          ("call scope \"" ++ toText scope ++ "\" exceeds agent authority \"" ++ toText identity.capabilityToken ++
            "\"") false)
          .refused ("call scope \"" ++ toText scope ++ "\" exceeds agent authority")

/-- One row for the attempt, and then its answer; without the row there is none. -/
def ledger (target : Option (JsString × Value)) (row : ExecRow) (answer : ℕ → Outcome ExecValue) : Attempt :=
  match r.append with
  | .ok rev => ⟨target, some row, .ok (answer rev)⟩
  | .failed applied err => ⟨target, if applied then some row else none, .error ("vivim.agent: vault.append@1 " ++ err)⟩

/-- The admitted call runs to its end. -/
def settle (scope : JsString) : Attempt :=
  let target := some (input.op, input.payload)
  match r.target with
  | .error (err, detail) =>
    let text := "target " ++ toText input.op ++ " " ++ err ++ ": " ++ detail
    if err = "DEGRADED" ∨ err = "BUDGET" then
      let row := refusedRow input rev (some scope) "settled:transport-failure" text false
      ⟨target, (ledger r target row fun _ => .fail .refused text).row,
        .error ("vivim.agent: " ++ toText input.op ++ " " ++ err ++ ": " ++ detail)⟩
    else
      ledger r target (refusedRow input rev (some scope) "refused:target" text false) fun _ =>
        .fail .refused ("target refused: " ++ err ++ ": " ++ detail)
  | .ok value =>
    let quarantined := execQuarantinedMidFlight rev head.version r.post
    ledger r target ⟨input.agentId, input.op, some scope, "settled", none, rev, input.realizationRef, quarantined,
      true, some value⟩ fun ledgerRev => .ok ⟨value, ledgerRev, rev, quarantined⟩

/-- `agent.exec@1` -/
def exec : Attempt :=
  match r.agent with
  | none => ⟨none, none, .ok (.fail .unknown ("agent \"" ++ toText input.agentId ++ "\" not found"))⟩
  | some identity =>
    match r.head with
    | none => ⟨none, none, .ok (.fail .unknown ("behavior contract \"" ++ toText identity.behaviorContractId ++
        "\" not found"))⟩
    | some (rev, head) =>
      match judge r input identity rev head with
      | .error err => ⟨none, none, .error err⟩
      | .ok (.refuse row status reason) => ledger r none row fun _ => .fail status reason
      | .ok (.go scope) => settle r input rev head scope

end Attempts

section Namespaces

variable {r : ExecReplies} {input : ExecInput} {identity : AgentIdentity} {token : ParsedScope}
  {op v : JsString} {payload : Value}

def nsClause (ns : JsString) : JsString := ofText "ns=" ++ ns

/-- A call at or below the path of a token, in the namespace of its clause, whose scope says no more than the
payload does. -/
structure Inside (token : ParsedScope) (v op : JsString) (payload : Value) : Prop where
  path : ∃ base, nameAtVersion op = some base ∧ token.path <+: base.splitOn dot
  ns : optionalProperty payload "ns" = .string v
  clauses : ∀ scope parsed, execCallScope op payload = .ok (.scope scope) → parseScope scope = .ok parsed →
    parsed.clauses = [nsClause v]

lemma ledger_target (r : ExecReplies) (target : Option (JsString × Value)) (row : ExecRow)
    (answer : ℕ → Outcome ExecValue) : (ledger r target row answer).target = target := by
  unfold ledger
  split <;> rfl

lemma settle_target (r : ExecReplies) (input : ExecInput) (rev : ℕ) (head : BehaviorContract) (scope : JsString) :
    (settle r input rev head scope).target = some (input.op, input.payload) := by
  unfold settle
  split
  · split_ifs
    · rfl
    · exact ledger_target _ _ _ _
  · exact ledger_target _ _ _ _

/-- The agent is refused under its own name, or it goes on within its token. -/
inductive Judged (input : ExecInput) (identity : AgentIdentity) : Verdict → Prop
  | refused {row : ExecRow} {status : FailStatus} {reason : String} (h : row.agentId = input.agentId) :
      Judged input identity (.refuse row status reason)
  | admitted {scope : JsString} (hscope : execCallScope input.op input.payload = .ok (.scope scope))
      (hwithin : within scope identity.capabilityToken = true) : Judged input identity (.go scope)

lemma judgeRealization_judged {rev : ℕ} {scope : JsString} {verdict : Verdict}
    (h : judgeRealization r input rev scope = some verdict) : Judged input identity verdict := by
  unfold judgeRealization at h
  split at h
  · cases h
  · split at h
    · cases h
      exact .refused rfl
    · dsimp only at h
      split_ifs at h
      cases h
      exact .refused rfl

lemma judge_judged {rev : ℕ} {head : BehaviorContract} {verdict : Verdict}
    (h : judge r input identity rev head = .ok verdict) : Judged input identity verdict := by
  unfold judge at h
  dsimp only at h
  split_ifs at h
  · cases h
    exact .refused rfl
  · obtain ⟨derived, hscope, h⟩ := bind_eq_ok h
    cases derived with
    | unsupported op =>
      cases h
      exact .refused rfl
    | unattributable op =>
      cases h
      exact .refused rfl
    | scope scope =>
      dsimp only at h
      split_ifs at h with hwithin
      · split at h
        · next refusal hrefusal =>
          cases h
          exact judgeRealization_judged hrefusal
        · obtain ⟨decision, _, h⟩ := bind_eq_ok h
          split_ifs at h
          · cases h
            exact .refused rfl
          · cases h
            exact .admitted hscope hwithin
      · cases h
        exact .refused rfl

/-- The target that is called is the one of the input, and its scope is within the token. -/
lemma exec_target (hagent : r.agent = some identity) (h : (exec r input).target = some (op, payload)) :
    op = input.op ∧ payload = input.payload ∧ ∃ scope, execCallScope op payload = .ok (.scope scope) ∧
      within scope identity.capabilityToken = true := by
  unfold exec at h
  rw [hagent] at h
  dsimp only at h
  split at h
  · cases h
  · split at h
    · cases h
    · cases (ledger_target _ _ _ _).symm.trans h
    · next scope hjudge =>
      cases (settle_target _ _ _ _ _).symm.trans h
      cases judge_judged hjudge with
      | admitted hscope hwithin => exact ⟨rfl, rfl, scope, hscope, hwithin⟩

/-- Where a scope is derived, from what. -/
lemma execCallScope_scope {scope : JsString} (h : execCallScope op payload = .ok (.scope scope)) :
    ∃ base ns, nameAtVersion op = some base ∧ optionalProperty payload "ns" = .string ns ∧
      scope = callScopeText base ns := by
  unfold execCallScope at h
  split at h
  · obtain ⟨text, _, h⟩ := bind_eq_ok h
    cases h
  · next base hbase =>
    split_ifs at h
    · split at h
      · next u rest hns =>
        cases h
        exact ⟨base, u :: rest, hbase, hns, rfl⟩
      · cases h
    · cases h

lemma colon_notMem_of_nameAtVersion {base : JsString} (h : nameAtVersion op = some base) : colon ∉ base := by
  unfold nameAtVersion at h
  split at h
  · next name version _ =>
    split_ifs at h with hname
    cases h
    intro hmem
    have hunit := List.all_eq_true.mp hname.2.1 colon hmem
    exact absurd hunit (by decide)
  · cases h

lemma colon_notMem_of_isConstraint {c : JsString} (h : isConstraint c = true) : colon ∉ c := by
  unfold isConstraint at h
  split at h
  · next key value hsplit =>
    obtain ⟨hkey, hvalue⟩ := Bool.and_eq_true_iff.mp h
    have hc : c = key ++ equalsSign :: value := by
      have hjoined : [equalsSign].intercalate (c.splitOn equalsSign) = c := List.intercalate_splitOn equalsSign
      rw [hsplit] at hjoined
      simpa using hjoined.symm
    intro hmem
    rw [hc, List.mem_append, List.mem_cons] at hmem
    obtain hmem | hmem | hmem := hmem
    · have hunit := List.all_eq_true.mp (Bool.and_eq_true_iff.mp hkey).2 colon hmem
      exact absurd hunit (by decide)
    · exact absurd hmem (by decide)
    · have hunit := List.all_eq_true.mp (Bool.and_eq_true_iff.mp hvalue).2 colon hmem
      exact absurd hunit (by decide)
  · cases h

/-- The scope of a namespace without a colon reads as it was written. -/
lemma parseScope_callScopeText {base ns : JsString} {parsed : ParsedScope} (hbase : colon ∉ base) (hns : colon ∉ ns)
    (h : parseScope (callScopeText base ns) = .ok parsed) :
    parsed.path = base.splitOn dot ∧ parsed.clauses = [nsClause ns] := by
  obtain ⟨_, hpath, hclauses, _⟩ := parseScope_ok h
  have hclean : colon ∉ nsClause ns := by
    intro hmem
    obtain hmem | hmem := List.mem_append.mp hmem
    · exact absurd hmem (by decide)
    · exact hns hmem
  have hsplit : (callScopeText base ns).splitOn colon = [base, nsClause ns] := by
    rw [callScopeText, List.splitOn_append_cons_self_of_not_mem hbase]
    exact congrArg (base :: ·) (List.splitOn_eq_singleton hclean)
  rw [hsplit] at hpath hclauses
  exact ⟨hpath, hclauses⟩

theorem exec_inside_iff (hagent : r.agent = some identity) (htoken : parseScope identity.capabilityToken = .ok token)
    (hclause : nsClause v ∈ token.clauses) (hissued : (exec r input).target = some (op, payload)) :
    Inside token v op payload ↔ ∀ ns, optionalProperty payload "ns" = .string ns → colon ∉ ns := by
  obtain ⟨_, _, scope, hscope, hwithin⟩ := exec_target hagent hissued
  obtain ⟨base, ns, hbase, hns, hscopeText⟩ := execCallScope_scope hscope
  obtain ⟨parsed, _, hparsed, hread, hle⟩ := isSubset_iff.mp (within_iff.mp hwithin)
  cases htoken.symm.trans hread
  constructor
  · intro h found hfound
    cases h.ns.symm.trans hfound
    have hconstraint := (parseScope_ok htoken).2.2.2.2 _ hclause
    exact fun hmem => colon_notMem_of_isConstraint hconstraint (List.mem_append_right _ hmem)
  · intro hcolon
    obtain ⟨hpath, hclauses⟩ := parseScope_callScopeText (colon_notMem_of_nameAtVersion hbase) (hcolon ns hns)
      (hscopeText ▸ hparsed)
    have hmem : nsClause v ∈ [nsClause ns] := hclauses ▸ hle.2 hclause
    obtain rfl : v = ns := List.append_cancel_left (List.mem_singleton.mp hmem)
    refine ⟨⟨base, hbase, hpath ▸ hle.1⟩, hns, fun other again hother hagain => ?_⟩
    cases hother.symm.trans hscope
    cases hagain.symm.trans hparsed
    exact hclauses

def mailAgent : AgentIdentity :=
  ⟨ofText "agent_1", none, ofText "mail", ofText "1", ofText "vault.append:ns=email", .active, ofText "root",
    [⟨behaviorNs, ofText "mail", 1⟩]⟩

def mailToken : ParsedScope := ⟨[ofText "vault", ofText "append"], [nsClause (ofText "email")]⟩

/-- An append by the agent to a namespace, where everything that is asked on the way agrees. -/
def appendTo (ns : String) : ExecInput :=
  ⟨ofText "agent_1", ofText "vault.append@1", .object [(ofText "ns", .string (ofText ns))], none⟩

def agreeing : ExecReplies :=
  ⟨some mailAgent, some (1, mailContract), none, .ok (.object [(ofText "decision", .string (ofText "allow"))]),
    .ok .null, some (1, mailContract), .ok 1⟩

theorem exec_inside_email : Inside mailToken (ofText "email") (ofText "vault.append@1") (appendTo "email").payload := by
  have hissued : ((exec agreeing (appendTo "email")).target).isSome = true := by decide
  obtain ⟨⟨op, payload⟩, htarget⟩ := Option.isSome_iff_exists.mp hissued
  obtain ⟨rfl, rfl, _⟩ := exec_target rfl htarget
  have htoken : parseScope mailAgent.capabilityToken = .ok mailToken := rfl
  have hclause : nsClause (ofText "email") ∈ mailToken.clauses := by decide
  refine (exec_inside_iff rfl htoken hclause htarget).mpr fun ns hns => ?_
  cases hns
  decide

/-- The namespace of another brings the clause of the token with it. -/
theorem namespace_escaped : ∃ (r : ExecReplies) (input : ExecInput) (identity : AgentIdentity) (token : ParsedScope)
    (op : JsString) (payload : Value), r.agent = some identity ∧
      parseScope identity.capabilityToken = .ok token ∧ nsClause (ofText "email") ∈ token.clauses ∧
        (exec r input).target = some (op, payload) ∧
          optionalProperty payload "ns" = .string (ofText "x:ns=email") ∧
            ¬ Inside token (ofText "email") op payload := by
  have hissued : ((exec agreeing (appendTo "x:ns=email")).target).isSome = true := by decide
  obtain ⟨⟨op, payload⟩, htarget⟩ := Option.isSome_iff_exists.mp hissued
  obtain ⟨rfl, rfl, _⟩ := exec_target rfl htarget
  refine ⟨agreeing, appendTo "x:ns=email", mailAgent, mailToken, _, _, rfl, rfl, by decide, htarget, rfl, ?_⟩
  intro h
  have hns : Value.string (ofText "x:ns=email") = .string (ofText "email") := h.ns
  exact absurd (Value.string.inj hns) (by decide)

end Namespaces

end VivimOmega.Agent

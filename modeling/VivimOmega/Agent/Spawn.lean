import VivimOmega.Agent.Records

/-! Spawning and delegation: what authority an agent is recorded with. -/

namespace VivimOmega.Agent

open Library Library.Json Law

section Authority

structure SpawnInput where
  parentId : Option JsString
  behaviorContractId : JsString
  requestedScope : JsString

structure SpawnAuthority where
  scope : JsString
  parentScope : Option JsString

/-- `isSubset` where what cannot be read is no subset. -/
def within (a b : JsString) : Bool :=
  match isSubset a b with
  | .ok narrower => narrower
  | .error _ => false

/-- The first demand of the contract that the scope does not cover refuses it. -/
def checkDemands (contract : BehaviorContract) (canonical : JsString) (parentScope : Option JsString) :
    Outcome SpawnAuthority :=
  match contract.requiredCapabilities.find? fun req => !within req canonical with
  | some req => .fail .unsupported ("behavior contract requires \"" ++ toText req ++ "\", outside requested scope \"" ++
      toText canonical ++ "\"")
  | none => .ok ⟨canonical, parentScope⟩

def resolveSpawnAuthority (parent : Option AgentIdentity) (ownCaps : List JsString) (requestedScope : JsString)
    (contract : BehaviorContract) : Except String (Outcome SpawnAuthority) :=
  match canonicalScope requestedScope with
  | .error err => throw ("agent.spawn@1: malformed requestedScope — " ++ err)
  | .ok canonical =>
    match parent with
    | some identity =>
      match mintCap identity.capabilityToken 1 >>= fun cap => attenuate cap canonical with
      | .error _ => return .fail .refused ("requested scope \"" ++ toText canonical ++ "\" exceeds parent scope \"" ++
          toText identity.capabilityToken ++ "\"")
      | .ok _ => return checkDemands contract canonical (some identity.capabilityToken)
    | none =>
      if (ownCaps.filterMap portCapToScope).any fun s => within canonical s then
        return checkDemands contract canonical none
      else return .fail .refused ("requested scope \"" ++ toText canonical ++
        "\" is covered by no granted composition capability")

def buildAgentIdentity (id : JsString) (input : SpawnInput) (contract : BehaviorContract) (scope : JsString)
    (createdBy : JsString) (parentRev : ℕ) (contractRev : ℕ) : AgentIdentity :=
  ⟨id, input.parentId, input.behaviorContractId, contract.version, scope, .staged, createdBy,
    ⟨behaviorNs, input.behaviorContractId, contractRev⟩ ::
      (input.parentId.map fun parent => ⟨agentNs, parent, parentRev⟩).toList⟩

end Authority

section Spawning

/-- The rows of the contracts and of the agents, and the identities that are being appended. -/
structure Agents where
  contracts : JsString → List BehaviorContract
  identities : JsString → List AgentIdentity
  flights : ℕ → Option AgentIdentity

/-- A contract is written by any of the behavior ops. A spawn, or a delegation, cites the revisions that it
has read; what it has decided is appended, or not. -/
inductive AgentEvent
  | publish (contract : BehaviorContract)
  | spawn (call : ℕ) (delegating : Bool) (input : SpawnInput) (parentRev contractRev : ℕ)
      (agentId createdBy : JsString)
  | landed (call : ℕ) (accepted : Bool)

variable (ownCaps : List JsString)

/-- The parent that is read, where the input names one. -/
def parentOf (s : Agents) (delegating : Bool) (input : SpawnInput) (parentRev : ℕ) :
    Option (Option AgentIdentity) :=
  match input.parentId with
  | none => if delegating then none else some none
  | some id =>
    match revision? (s.identities id) parentRev with
    | none => none
    | some parent =>
      if delegating && (parent.state = .quarantined || parent.state = .retired) then none else some (some parent)

/-- The identity that a call comes to, if it is not refused. -/
def spawnIdentity (s : Agents) (delegating : Bool) (input : SpawnInput) (parentRev contractRev : ℕ)
    (agentId createdBy : JsString) : Option AgentIdentity := do
  let contract ← revision? (s.contracts input.behaviorContractId) contractRev
  let parent ← parentOf s delegating input parentRev
  if contract.state = .active then
    match resolveSpawnAuthority parent ownCaps input.requestedScope contract with
    | .ok (.ok authority) =>
      some (buildAgentIdentity agentId input contract authority.scope createdBy parentRev contractRev)
    | _ => none
  else none

namespace Agents

variable (s : Agents)

def publish (contract : BehaviorContract) : Agents :=
  { s with contracts := Function.update s.contracts contract.id (s.contracts contract.id ++ [contract]) }

def fly (call : ℕ) (flight : Option AgentIdentity) : Agents :=
  { s with flights := Function.update s.flights call flight }

def record (identity : AgentIdentity) : Agents :=
  { s with identities := Function.update s.identities identity.id (s.identities identity.id ++ [identity]) }

end Agents

def agentStep (s : Agents) : AgentEvent → Option Agents
  | .publish contract => some (s.publish contract)
  | .spawn call delegating input parentRev contractRev agentId createdBy =>
    if s.flights call = none then
      some (s.fly call (spawnIdentity ownCaps s delegating input parentRev contractRev agentId createdBy))
    else none
  | .landed call accepted =>
    (s.flights call).map fun identity => (if accepted then s.record identity else s).fly call none

def agents : System Agents AgentEvent where
  init s := s = ⟨fun _ => [], fun _ => [], fun _ => none⟩
  step := agentStep ownCaps

/-- An identity is recorded, and cites the revision of its parent. -/
def Agents.Parent (s : Agents) (row parent : AgentIdentity) : Prop :=
  (∃ id, row ∈ s.identities id) ∧ ∃ id rev, row.parentId = some id ∧ ⟨agentNs, id, rev⟩ ∈ row.provenance ∧
    revision? (s.identities id) rev = some parent

/-- The path of a scope lies at or below another. -/
def AtOrBelow (a b : JsString) : Prop :=
  ∃ pa pb, parseScope a = .ok pa ∧ parseScope b = .ok pb ∧ pb.path <+: pa.path

end Spawning

section Narrowing

variable {ownCaps : List JsString} {s t : Agents} {row : AgentIdentity}

lemma within_iff {a b : JsString} : within a b = true ↔ isSubset a b = .ok true := by
  unfold within
  cases isSubset a b with
  | error err => simp
  | ok narrower => simp

/-- What stands behind a recorded identity. -/
structure Certified (ownCaps : List JsString) (s : Agents) (row : AgentIdentity) : Prop where
  contract : ∃ rev contract, ⟨behaviorNs, row.behaviorContractId, rev⟩ ∈ row.provenance ∧
    revision? (s.contracts row.behaviorContractId) rev = some contract ∧ contract.version = row.behaviorVersion ∧
      ∀ req ∈ contract.requiredCapabilities, within req row.capabilityToken = true
  root : row.parentId = none → ∃ cap ∈ ownCaps, ∃ path, portCapToScope cap = some path ∧
    within row.capabilityToken path = true
  cited : ∀ id, row.parentId = some id → ∃ rev, ⟨agentNs, id, rev⟩ ∈ row.provenance
  child : ∀ id rev, row.parentId = some id → ⟨agentNs, id, rev⟩ ∈ row.provenance →
    ∃ parent, revision? (s.identities id) rev = some parent ∧
      within row.capabilityToken parent.capabilityToken = true

lemma Certified.mono (h : Certified ownCaps s row)
    (hcontracts : ∀ id rev c, revision? (s.contracts id) rev = some c → revision? (t.contracts id) rev = some c)
    (hidentities : ∀ id rev p, revision? (s.identities id) rev = some p →
      revision? (t.identities id) rev = some p) : Certified ownCaps t row where
  contract := by
    obtain ⟨rev, contract, href, hfound, hrest⟩ := h.contract
    exact ⟨rev, contract, href, hcontracts _ _ _ hfound, hrest⟩
  root := h.root
  cited := h.cited
  child := by
    intro id rev hid href
    obtain ⟨parent, hparent, hwithin⟩ := h.child id rev hid href
    exact ⟨parent, hidentities _ _ _ hparent, hwithin⟩

/-- What the authority is decided on. -/
lemma resolveSpawnAuthority_ok {parent : Option AgentIdentity} {requestedScope : JsString}
    {contract : BehaviorContract} {authority : SpawnAuthority}
    (h : resolveSpawnAuthority parent ownCaps requestedScope contract = .ok (.ok authority)) :
    (∀ req ∈ contract.requiredCapabilities, within req authority.scope = true) ∧
      (parent = none → ∃ cap ∈ ownCaps, ∃ path, portCapToScope cap = some path ∧
        within authority.scope path = true) ∧
      ∀ identity, parent = some identity → within authority.scope identity.capabilityToken = true := by
  have hdemands : ∀ {canonical : JsString} {parentScope : Option JsString},
      checkDemands contract canonical parentScope = .ok authority →
        authority.scope = canonical ∧ ∀ req ∈ contract.requiredCapabilities, within req canonical = true := by
    intro canonical parentScope hok
    unfold checkDemands at hok
    split at hok
    · cases hok
    · next hnone =>
      cases hok
      exact ⟨rfl, fun req hreq => by simpa using List.find?_eq_none.mp hnone req hreq⟩
  unfold resolveSpawnAuthority at h
  split at h
  · cases h
  · next canonical _ =>
    cases parent with
    | none =>
      dsimp only at h
      split_ifs at h with hcovered
      · obtain ⟨rfl, hreqs⟩ := hdemands (Except.ok.inj h)
        refine ⟨hreqs, fun _ => ?_, nofun⟩
        obtain ⟨path, hpath, hwithin⟩ := List.any_eq_true.mp hcovered
        obtain ⟨cap, hcap, hscope⟩ := List.mem_filterMap.mp hpath
        exact ⟨cap, hcap, path, hscope, hwithin⟩
      · cases h
    | some identity =>
      dsimp only at h
      split at h
      · cases h
      · next cap hcap =>
        obtain ⟨rfl, hreqs⟩ := hdemands (Except.ok.inj h)
        refine ⟨hreqs, nofun, fun found hfound => ?_⟩
        cases hfound
        obtain ⟨minted, hminted, hattenuate⟩ := bind_eq_ok hcap
        obtain ⟨narrower, hnarrower, hattenuate⟩ := bind_eq_ok hattenuate
        obtain ⟨_, hrequire, _⟩ := bind_eq_ok hattenuate
        obtain ⟨_, _, hmint⟩ := bind_eq_ok hminted
        cases hmint
        rw [require_ok hrequire] at hnarrower
        exact within_iff.mpr hnarrower

lemma parentOf_some {delegating : Bool} {input : SpawnInput} {parentRev : ℕ} {parent : Option AgentIdentity}
    (h : parentOf s delegating input parentRev = some parent) :
    (input.parentId = none → parent = none) ∧ ∀ id, input.parentId = some id →
      ∃ identity, parent = some identity ∧ revision? (s.identities id) parentRev = some identity := by
  unfold parentOf at h
  split at h
  · next hnone =>
    split_ifs at h
    cases h
    exact ⟨fun _ => rfl, fun id hid => nomatch hnone.symm.trans hid⟩
  · next id hid =>
    split at h
    · cases h
    · next identity hidentity =>
      split_ifs at h
      cases h
      refine ⟨fun hnone => absurd (hid.symm.trans hnone) nofun, fun found hfound => ?_⟩
      cases hid.symm.trans hfound
      exact ⟨identity, rfl, hidentity⟩

lemma spawnIdentity_certified {delegating : Bool} {input : SpawnInput} {parentRev contractRev : ℕ}
    {agentId createdBy : JsString}
    (h : spawnIdentity ownCaps s delegating input parentRev contractRev agentId createdBy = some row) :
    Certified ownCaps s row := by
  obtain ⟨contract, hcontract, h⟩ := Option.bind_eq_some_iff.mp h
  obtain ⟨parent, hparent, h⟩ := Option.bind_eq_some_iff.mp h
  obtain ⟨hroot, hchild⟩ := parentOf_some hparent
  split_ifs at h
  split at h
  · next authority hauthority =>
    cases h
    obtain ⟨hdemands, hcovered, hnarrower⟩ := resolveSpawnAuthority_ok hauthority
    refine ⟨⟨contractRev, contract, List.mem_cons_self, hcontract, rfl, hdemands⟩, ?_, ?_, ?_⟩
    · exact fun hnone => hcovered (hroot hnone)
    · intro id hid
      refine ⟨parentRev, List.mem_cons_of_mem _ ?_⟩
      change input.parentId = some id at hid
      rw [hid]
      exact List.mem_singleton_self _
    · intro id rev hid href
      obtain ⟨identity, rfl, hidentity⟩ := hchild id hid
      have hrev : rev = parentRev := by
        have hne : agentNs ≠ behaviorNs := by decide
        change input.parentId = some id at hid
        rw [buildAgentIdentity, hid] at href
        simpa [hne] using href
      exact ⟨identity, hrev ▸ hidentity, hnarrower identity rfl⟩
  · cases h

/-- Every identity that is recorded, or about to be, is certified. -/
def AllCertified (ownCaps : List JsString) (s : Agents) : Prop :=
  (∀ id, ∀ row ∈ s.identities id, Certified ownCaps s row) ∧
    ∀ call row, s.flights call = some row → Certified ownCaps s row

lemma revision?_update {α : Type} {rows : JsString → List α} {key id : JsString} {new row : α} {rev : ℕ}
    (h : revision? (rows id) rev = some row) :
    revision? (Function.update rows key (rows key ++ [new]) id) rev = some row := by
  rw [Function.update_apply]
  split_ifs with hid
  · subst hid
    exact revision?_append h
  · exact h

lemma AllCertified.fly (h : AllCertified ownCaps s) {call : ℕ} {flight : Option AgentIdentity}
    (hflight : ∀ row, flight = some row → Certified ownCaps s row) : AllCertified ownCaps (s.fly call flight) := by
  have hkeep : ∀ row, Certified ownCaps s row → Certified ownCaps (s.fly call flight) row := fun row hrow =>
    hrow.mono (fun _ _ _ hfound => hfound) (fun _ _ _ hfound => hfound)
  refine ⟨fun id row hrow => hkeep row (h.1 id row hrow), fun c row hrow => hkeep row ?_⟩
  have hlookup := (Function.update_apply _ _ _ _).symm.trans hrow
  split_ifs at hlookup
  · exact hflight row hlookup
  · exact h.2 c row hlookup

lemma AllCertified.record (h : AllCertified ownCaps s) (hrow : Certified ownCaps s row) :
    AllCertified ownCaps (s.record row) := by
  have hkeep : ∀ r, Certified ownCaps s r → Certified ownCaps (s.record row) r := fun r hr =>
    hr.mono (fun _ _ _ hfound => hfound) (fun _ _ _ hfound => revision?_update hfound)
  refine ⟨fun id r hr => hkeep r ?_, fun c r hr => hkeep r (h.2 c r hr)⟩
  have hlookup := (congrArg (r ∈ ·) (Function.update_apply _ _ _ _)).mp hr
  split_ifs at hlookup
  · obtain hold | hnew := List.mem_append.mp hlookup
    · exact h.1 _ r hold
    · rw [List.mem_singleton.mp hnew]
      exact hrow
  · exact h.1 id r hlookup

lemma allCertified_step {e : AgentEvent} (h : AllCertified ownCaps s) (hstep : agentStep ownCaps s e = some t) :
    AllCertified ownCaps t := by
  cases e with
  | publish contract =>
    cases hstep
    have hkeep : ∀ row, Certified ownCaps s row → Certified ownCaps (s.publish contract) row := fun row hrow =>
      hrow.mono (fun _ _ _ hfound => revision?_update hfound) (fun _ _ _ hfound => hfound)
    exact ⟨fun id row hrow => hkeep row (h.1 id row hrow), fun call row hrow => hkeep row (h.2 call row hrow)⟩
  | spawn call delegating input parentRev contractRev agentId createdBy =>
    dsimp only [agentStep] at hstep
    split_ifs at hstep
    cases hstep
    exact h.fly fun row hrow => spawnIdentity_certified hrow
  | landed call accepted =>
    obtain ⟨identity, hidentity, rfl⟩ := Option.map_eq_some_iff.mp hstep
    cases accepted with
    | false => exact h.fly nofun
    | true => exact (h.record (h.2 call identity hidentity)).fly nofun

/-- A recorded identity has at most the authority of each of its ancestors, and at least what the contract that
it cites demands; without a parent it lies below a capability of the composition. -/
theorem delegation_narrows (h : (agents ownCaps).Reachable System.free s) {id : JsString}
    (hrow : row ∈ s.identities id) :
    (∀ ancestor, Relation.TransGen s.Parent row ancestor →
      isSubset row.capabilityToken ancestor.capabilityToken = .ok true) ∧
    (∀ parent, row.parentId = some parent → ∃ identity ∈ s.identities parent, s.Parent row identity) ∧
    (row.parentId = none → ∃ cap ∈ ownCaps, ∃ path, portCapToScope cap = some path ∧
      AtOrBelow row.capabilityToken path) ∧
    ∃ rev contract, ⟨behaviorNs, row.behaviorContractId, rev⟩ ∈ row.provenance ∧
      revision? (s.contracts row.behaviorContractId) rev = some contract ∧ contract.version = row.behaviorVersion ∧
        ∀ req ∈ contract.requiredCapabilities, isSubset req row.capabilityToken = .ok true := by
  have hall : AllCertified ownCaps s := by
    refine h.invariant ?_ fun s e t _ hs _ hstep => allCertified_step hs hstep
    rintro s rfl
    exact ⟨nofun, nofun⟩
  have hcertified := hall.1 id row hrow
  refine ⟨fun ancestor hancestor => ?_, fun parent hparent => ?_, fun hroot => ?_, ?_⟩
  · refine within_ancestors (fun a b => isSubset a b = .ok true) AgentIdentity.capabilityToken
      (fun _ _ _ => isSubset_trans) ?_ hancestor
    rintro child parent ⟨⟨id, hchild⟩, pid, rev, hpid, href, hparent⟩
    obtain ⟨found, hfound, hwithin⟩ := (hall.1 id child hchild).child pid rev hpid href
    cases hparent.symm.trans hfound
    exact within_iff.mp hwithin
  · obtain ⟨rev, href⟩ := hcertified.cited parent hparent
    obtain ⟨identity, hfound, _⟩ := hcertified.child parent rev hparent href
    exact ⟨identity, mem_of_revision? hfound, ⟨id, hrow⟩, parent, rev, hparent, href, hfound⟩
  · obtain ⟨cap, hcap, path, hpath, hwithin⟩ := hcertified.root hroot
    obtain ⟨pa, pb, ha, hb, hle⟩ := isSubset_iff.mp (within_iff.mp hwithin)
    exact ⟨cap, hcap, path, hpath, pa, pb, ha, hb, hle.1⟩
  · obtain ⟨rev, contract, href, hfound, hversion, hdemands⟩ := hcertified.contract
    exact ⟨rev, contract, href, hfound, hversion, fun req hreq => within_iff.mp (hdemands req hreq)⟩

def mailContract : BehaviorContract :=
  ⟨ofText "mail", ofText "1", .active, [], [ofText "vault.append:ns=email:day=1"], []⟩

def appendCap : List JsString := [ofText "port:vault.append@1"]

/-- A root agent, and one that it delegates to. -/
def delegation : List AgentEvent :=
  [.publish mailContract, .spawn 0 false ⟨none, ofText "mail", ofText "vault.append:ns=email"⟩ 0 1
      (ofText "agent_1") (ofText "root"), .landed 0 true,
    .spawn 1 true ⟨some (ofText "agent_1"), ofText "mail", ofText "vault.append:ns=email:day=1"⟩ 1 1
      (ofText "agent_2") (ofText "agent_1"), .landed 1 true]

def delegate : AgentIdentity :=
  ⟨ofText "agent_2", some (ofText "agent_1"), ofText "mail", ofText "1", ofText "vault.append:day=1:ns=email",
    .staged, ofText "agent_1", [⟨behaviorNs, ofText "mail", 1⟩, ⟨agentNs, ofText "agent_1", 1⟩]⟩

theorem delegation_narrows_child : ∃ s, (agents appendCap).Reachable System.free s ∧
    delegate ∈ s.identities (ofText "agent_2") ∧ ∃ identity ∈ s.identities (ofText "agent_1"),
      isSubset delegate.capabilityToken identity.capabilityToken = .ok true := by
  have hrun : ((agents appendCap).exec System.free ⟨fun _ => [], fun _ => [], fun _ => none⟩ delegation).map
      (fun s => decide (delegate ∈ s.identities (ofText "agent_2"))) = some true := by
    decide
  obtain ⟨s, hreach, hmem⟩ := System.exec_spec rfl hrun
  have hrow := of_decide_eq_true hmem
  obtain ⟨hancestors, hparents, _⟩ := delegation_narrows hreach hrow
  obtain ⟨identity, hidentity, hparent⟩ := hparents (ofText "agent_1") rfl
  exact ⟨s, hreach, hrow, identity, hidentity, hancestors identity (.single hparent)⟩

end Narrowing

end VivimOmega.Agent

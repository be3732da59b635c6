import VivimOmega.Agent.Records

/-! The history of a behavior contract: proposals, promotions on evidence, and rollbacks. The governed ops do the
same as the plain ones once their actor has passed. -/

namespace VivimOmega.Agent

open Library Library.Json Law

section Decisions

structure ContractInput where
  id : JsString
  version : JsString
  forbiddenActions : List JsString
  requiredCapabilities : List JsString
  provenance : Option (List VaultProvenanceRef)

def stageBehaviorContract (input : ContractInput) : BehaviorContract :=
  ⟨input.id, input.version, .staged, input.forbiddenActions, input.requiredCapabilities,
    input.provenance.getD []⟩

def checkPromote (current : Option BehaviorContract) (evidence : List VaultProvenanceRef) :
    Outcome BehaviorContract :=
  match current with
  | none => .fail .unknown "behavior contract not found"
  | some contract =>
    if contract.state ≠ .staged then
      .fail .unsupported ("only staged contracts promote (found \"" ++ contract.state.text ++ "\")")
    else if evidence = [] then
      .fail .refused "promotion requires attached evidence (confidence never promotes alone)"
    else .ok { contract with state := .active, provenance := contract.provenance ++ evidence }

structure RevState where
  rev : ℕ
  version : JsString
  state : LifecycleState

/-- A revision that a rollback may bring back in the place of an active one. -/
def RevState.Candidate (active r : RevState) : Prop :=
  r.rev ≠ active.rev ∧ r.version ≠ active.version ∧ (r.state = .staged ∨ r.state = .verified)

instance (active r : RevState) : Decidable (active.Candidate r) :=
  inferInstanceAs (Decidable (_ ∧ _))

structure RollbackPlan where
  quarantineRev : ℕ
  reactivateRev : ℕ

def decideRollback (revsNewestFirst : List RevState) : Outcome RollbackPlan :=
  match revsNewestFirst.find? fun r => r.state = .active with
  | none => .fail .unsupported "no active revision to quarantine"
  | some active =>
    match revsNewestFirst.find? fun r => active.Candidate r with
    | none => .fail .unsupported "no prior staged|verified version to reactivate"
    | some prior => .ok ⟨active.rev, prior.rev⟩

end Decisions

section Histories

/-- Which call has written a revision: this is kept for the statements only. -/
inductive Origin
  | proposed
  | promoted (evidence : List VaultProvenanceRef)
  | quarantined (rev : ℕ)
  | reactivated (plan : RollbackPlan)

structure Revision where
  contract : BehaviorContract
  origin : Origin

/-- A promotion waits for its evidence, a rollback for its two appends. -/
inductive EvolutionFlight
  | promoting (evidence : List VaultProvenanceRef) (next : BehaviorContract)
  | quarantining (plan : RollbackPlan) (active prior : BehaviorContract)
  | reactivating (plan : RollbackPlan) (prior : BehaviorContract)

structure Evolution where
  rows : List Revision
  flights : ℕ → Option EvolutionFlight

/-- `promote` and `rollback` read the history; the other steps of a call append to it, or do not. A rollback that
finds a gap has `seen` as many rows as are above it. -/
inductive EvolutionEvent
  | propose (input : ContractInput)
  | promote (call : ℕ) (evidence : List VaultProvenanceRef)
  | promoted (call : ℕ) (applied : Bool)
  | rollback (call seen : ℕ)
  | quarantined (call : ℕ) (applied : Bool)
  | reactivated (call : ℕ) (applied : Bool)

namespace Evolution

variable (s : Evolution)

def fly (call : ℕ) (flight : Option EvolutionFlight) : Evolution :=
  { s with flights := Function.update s.flights call flight }

def append (contract : BehaviorContract) (origin : Origin) : Evolution :=
  { s with rows := s.rows ++ [⟨contract, origin⟩] }

def revState (row : Revision) (n : ℕ) : RevState := ⟨n + 1, row.contract.version, row.contract.state⟩

/-- The walk from the newest row down, a hundred rows at most. -/
def walk (seen : ℕ) : List RevState := ((s.rows.mapIdx fun n row => revState row n).reverse.take (min seen 100))

/-- The rows of a plan. -/
def planned (plan : RollbackPlan) : Option (BehaviorContract × BehaviorContract) := do
  let active ← revision? s.rows plan.quarantineRev
  let prior ← revision? s.rows plan.reactivateRev
  return (active.contract, prior.contract)

def rollbackFlight (seen : ℕ) : Option EvolutionFlight :=
  match decideRollback (s.walk seen) with
  | .ok plan => (s.planned plan).map fun rows => .quarantining plan rows.1 rows.2
  | .fail _ _ => none

def promoteFlight (evidence : List VaultProvenanceRef) : Option EvolutionFlight :=
  match checkPromote (s.rows.getLast?.map Revision.contract) evidence with
  | .ok next => some (.promoting evidence next)
  | .fail _ _ => none

def step : EvolutionEvent → Option Evolution
  | .propose input => some (s.append (stageBehaviorContract input) .proposed)
  | .promote call evidence => if s.flights call = none then some (s.fly call (s.promoteFlight evidence)) else none
  | .promoted call applied =>
    match s.flights call with
    | some (.promoting evidence next) =>
      some ((if applied then s.append next (.promoted evidence) else s).fly call none)
    | _ => none
  | .rollback call seen => if s.flights call = none then some (s.fly call (s.rollbackFlight seen)) else none
  | .quarantined call applied =>
    match s.flights call with
    | some (.quarantining plan active prior) =>
      some (if applied then
          (s.append { active with state := .quarantined } (.quarantined plan.quarantineRev)).fly call
            (some (.reactivating plan prior))
        else s.fly call none)
    | _ => none
  | .reactivated call applied =>
    match s.flights call with
    | some (.reactivating plan prior) =>
      some ((if applied then s.append { prior with state := .active } (.reactivated plan) else s).fly call none)
    | _ => none

end Evolution

def evolution : System Evolution EvolutionEvent where
  init s := s = ⟨[], fun _ => none⟩
  step := Evolution.step

/-- The version was active before, and is brought back from a revision below the active one. -/
def Restores (rows : List Revision) (plan : RollbackPlan) (version : JsString) : Prop :=
  plan.reactivateRev < plan.quarantineRev ∧
    (∃ active, revision? rows plan.quarantineRev = some active ∧ active.contract.state = .active ∧
      active.contract.version ≠ version) ∧
    (∃ prior, revision? rows plan.reactivateRev = some prior ∧ prior.contract.version = version) ∧
    ∃ row ∈ rows, row.contract.state = .active ∧ row.contract.version = version

/-- What makes a revision active, with the history before it. -/
def Justified (rows : List Revision) (row : Revision) : Prop :=
  (∃ evidence, row.origin = .promoted evidence ∧ evidence ≠ []) ∨
    ∃ plan, row.origin = .reactivated plan ∧ Restores rows plan row.contract.version

def Founded (rows : List Revision) : Prop :=
  ∀ n row, rows[n]? = some row → row.contract.state = .active → Justified (rows.take n) row

/-- What a rollback finds: the newest candidate lies below the newest active revision, and its version was
active once. -/
def Restorable (s : Evolution) : EvolutionEvent → Prop
  | .rollback _ seen => ∀ active ∈ (s.walk seen).find? (fun r => r.state = .active),
      ∀ prior ∈ (s.walk seen).find? (fun r => active.Candidate r),
        prior.rev < active.rev ∧ ∃ row ∈ s.rows, row.contract.state = .active ∧ row.contract.version = prior.version
  | _ => True

instance (s : Evolution) : (e : EvolutionEvent) → Decidable (Restorable s e)
  | .rollback _ seen => inferInstanceAs (Decidable (∀ active ∈ (s.walk seen).find? _, _))
  | .propose _ | .promote _ _ | .promoted _ _ | .quarantined _ _ | .reactivated _ _ => isTrue trivial

end Histories

section Evidence

variable {s t : Evolution} {rows : List Revision} {row : Revision} {plan : RollbackPlan} {version : JsString}

lemma Restores.mono (h : Restores rows plan version) (more : List Revision) :
    Restores (rows ++ more) plan version := by
  obtain ⟨hlt, ⟨active, hactive, hstate⟩, ⟨prior, hprior, hversion⟩, old, hold, hactive'⟩ := h
  exact ⟨hlt, ⟨active, revision?_append hactive, hstate⟩, ⟨prior, revision?_append hprior, hversion⟩,
    old, List.mem_append_left _ hold, hactive'⟩

lemma Founded.concat (h : Founded rows) (hrow : row.contract.state = .active → Justified rows row) :
    Founded (rows ++ [row]) := by
  intro n found hfound hactive
  by_cases hn : n < rows.length
  · rw [List.getElem?_append_left hn] at hfound
    rw [List.take_append_of_le_length hn.le]
    exact h n found hfound hactive
  · obtain ⟨hlt, _⟩ := List.getElem?_eq_some_iff.mp hfound
    rw [List.length_append, List.length_singleton] at hlt
    obtain rfl : n = rows.length := by omega
    rw [List.getElem?_concat_length] at hfound
    cases hfound
    rw [List.take_left]
    exact hrow hactive

/-- A flight promises a justified revision, whenever it is appended. -/
def Promises (rows : List Revision) : EvolutionFlight → Prop
  | .promoting evidence _ => evidence ≠ []
  | .quarantining plan _ prior => Restores rows plan prior.version
  | .reactivating plan prior => Restores rows plan prior.version

lemma Promises.mono {flight : EvolutionFlight} (h : Promises rows flight) (more : List Revision) :
    Promises (rows ++ more) flight := by
  cases flight with
  | promoting evidence next => exact h
  | quarantining plan active prior => exact Restores.mono h more
  | reactivating plan prior => exact Restores.mono h more

lemma mem_walk {seen : ℕ} {r : RevState} (h : r ∈ s.walk seen) :
    ∃ row, revision? s.rows r.rev = some row ∧ r.version = row.contract.version ∧
      r.state = row.contract.state := by
  obtain ⟨n, hn, rfl⟩ := List.mem_mapIdx.mp (List.mem_reverse.mp (List.mem_of_mem_take h))
  exact ⟨s.rows[n], List.getElem?_eq_getElem hn, rfl, rfl⟩

lemma promoteFlight_promises {evidence : List VaultProvenanceRef} {flight : EvolutionFlight}
    (h : s.promoteFlight evidence = some flight) : Promises s.rows flight := by
  unfold Evolution.promoteFlight checkPromote at h
  split at h
  · next hok =>
    cases h
    split at hok
    · cases hok
    · split_ifs at hok with _ hevidence
      exact hevidence
  · cases h

lemma rollbackFlight_promises {call seen : ℕ} {flight : EvolutionFlight} (hok : Restorable s (.rollback call seen))
    (h : s.rollbackFlight seen = some flight) : Promises s.rows flight := by
  unfold Evolution.rollbackFlight at h
  split at h
  on_goal 2 => cases h
  next plan hplan =>
  unfold decideRollback at hplan
  split at hplan
  · cases hplan
  · next active hactive =>
    split at hplan
    · cases hplan
    · next prior hprior =>
      cases hplan
      obtain ⟨⟨old, new⟩, hrows, rfl⟩ := Option.map_eq_some_iff.mp h
      obtain ⟨hbelow, hbefore⟩ := hok active hactive prior hprior
      obtain ⟨rowA, hrowA, hversionA, hstateA⟩ := mem_walk (List.mem_of_find?_eq_some hactive)
      obtain ⟨rowP, hrowP, hversionP, _⟩ := mem_walk (List.mem_of_find?_eq_some hprior)
      have hisActive : active.state = .active := by simpa using List.find?_some hactive
      have hcandidate : active.Candidate prior := by simpa using List.find?_some hprior
      have hprior' : new = rowP.contract := by
        rw [Evolution.planned, hrowA, hrowP] at hrows
        cases hrows
        rfl
      have hversion : new.version = prior.version := by rw [hprior', hversionP]
      refine ⟨hbelow, ⟨rowA, hrowA, hstateA.symm.trans hisActive, ?_⟩, ⟨rowP, hrowP, ?_⟩, ?_⟩
      · rw [← hversionA, hversion]
        exact fun h => hcandidate.2.1 h.symm
      · rw [← hversionP, hversion]
      · rw [hversion]
        exact hbefore

/-- Flights promise what they append, and what is active is justified. -/
def Sound (s : Evolution) : Prop :=
  Founded s.rows ∧ ∀ call flight, s.flights call = some flight → Promises s.rows flight

lemma Sound.fly (h : Sound s) {call : ℕ} {flight : Option EvolutionFlight}
    (hflight : ∀ f, flight = some f → Promises s.rows f) : Sound (s.fly call flight) := by
  refine ⟨h.1, fun c f hf => ?_⟩
  have hlookup := (Function.update_apply _ _ _ _).symm.trans hf
  split_ifs at hlookup
  · exact hflight f hlookup
  · exact h.2 c f hlookup

lemma Sound.land (h : Sound s) (call : ℕ) : Sound (s.fly call none) := h.fly nofun

lemma Sound.append (h : Sound s) {contract : BehaviorContract} {origin : Origin}
    (hrow : contract.state = .active → Justified s.rows ⟨contract, origin⟩) : Sound (s.append contract origin) :=
  ⟨h.1.concat hrow, fun call flight hflight => (h.2 call flight hflight).mono _⟩

lemma sound_step {e : EvolutionEvent} (h : Sound s) (hok : Restorable s e) (hstep : s.step e = some t) : Sound t := by
  cases e with
  | propose input =>
    cases hstep
    exact h.append nofun
  | promote call evidence =>
    dsimp only [Evolution.step] at hstep
    split_ifs at hstep
    cases hstep
    exact h.fly fun f hf => promoteFlight_promises hf
  | promoted call applied =>
    dsimp only [Evolution.step] at hstep
    split at hstep
    · next evidence next hflight =>
      cases hstep
      have hevidence : evidence ≠ [] := h.2 call _ hflight
      cases applied with
      | false => exact h.land call
      | true =>
        have hsound : Sound (s.append next (.promoted evidence)) :=
          h.append fun _ => Or.inl ⟨evidence, rfl, hevidence⟩
        exact hsound.land call
    · cases hstep
  | rollback call seen =>
    dsimp only [Evolution.step] at hstep
    split_ifs at hstep
    cases hstep
    exact h.fly fun f hf => rollbackFlight_promises hok hf
  | quarantined call applied =>
    dsimp only [Evolution.step] at hstep
    split at hstep
    · next plan active prior hflight =>
      cases hstep
      have hrestores : Restores s.rows plan prior.version := h.2 call _ hflight
      cases applied with
      | false => exact h.land call
      | true =>
        have hsound : Sound (s.append { active with state := .quarantined } (.quarantined plan.quarantineRev)) :=
          h.append nofun
        refine hsound.fly fun f hf => ?_
        cases hf
        exact hrestores.mono _
    · cases hstep
  | reactivated call applied =>
    dsimp only [Evolution.step] at hstep
    split at hstep
    · next plan prior hflight =>
      cases hstep
      have hrestores : Restores s.rows plan prior.version := h.2 call _ hflight
      cases applied with
      | false => exact h.land call
      | true =>
        have hsound : Sound (s.append { prior with state := .active } (.reactivated plan)) :=
          h.append fun _ => Or.inr ⟨plan, rfl, hrestores⟩
        exact hsound.land call
    · cases hstep

def noHistory : Evolution := ⟨[], fun _ => none⟩

def versionInput (version : String) : ContractInput := ⟨ofText "mail", ofText version, [], [], none⟩

def evidence : List VaultProvenanceRef := [⟨ofText "decision", ofText "d1", 1⟩]

def promotion (call : ℕ) : List EvolutionEvent := [.promote call evidence, .promoted call true]

def rollback (call : ℕ) : List EvolutionEvent := [.rollback call 100, .quarantined call true, .reactivated call true]

def stateOf (row : Revision) : LifecycleState × JsString := (row.contract.state, row.contract.version)

def rollbackPlan (row : Revision) : Option (ℕ × ℕ) :=
  match row.origin with
  | .reactivated plan => some (plan.quarantineRev, plan.reactivateRev)
  | _ => none

end Evidence

end VivimOmega.Agent

import VivimOmega.Host.Gate

/-! One gated call followed through the rest of the run: nothing is sent and nothing spawned for it
unless the law that was routed when it was opened allowed it. -/

namespace VivimOmega.Host

open Library Contracts

namespace PortRouter

variable {R R' R₀ R₁ S S' : PortRouter} {manifests : OrderedMap String PluginManifest} {e : Event}
  {c : CausationId} {f g : CallFrame} {Law Law' : CausationId → String → Prop}

/-! ### Declared risks -/

/-- A registered manifest declares the contract op with a risk other than `read`. -/
def DeclaredRisky (R : PortRouter) (op : String) : Prop :=
  ∃ id m contribution risk, R.routes.manifests.get? id = some m ∧
    contribution ∈ m.contributions.contract ∧ contribution.op = op ∧
    contribution.risk = some risk ∧ risk ≠ .read

/-- One turn of the loop of `riskyOps`. -/
def noteRisk (ops : OrderedMap String RiskClass) (c : Contribution) : OrderedMap String RiskClass :=
  match c.risk with
  | none => ops
  | some .read => ops
  | some risk => ops.set c.op risk

lemma riskyOps_has {m : PluginManifest} {contribution : Contribution} {risk : RiskClass}
    (hmem : contribution ∈ m.contributions.contract) (hrisk : contribution.risk = some risk)
    (hread : risk ≠ .read) : (riskyOps m).has contribution.op = true := by
  have hstep : ∀ ops c op, ops.has op = true → (noteRisk ops c).has op = true := by
    intro ops c op hop
    rw [noteRisk]
    split
    · exact hop
    · exact hop
    · simp [hop]
  have hkept : ∀ (rest : List Contribution) ops op, ops.has op = true →
      (rest.foldl noteRisk ops).has op = true := by
    intro rest
    induction rest with
    | nil => exact fun _ _ hop => hop
    | cons c rest ih => exact fun ops op hop => ih _ op (hstep ops c op hop)
  have hnoted : ∀ ops, (noteRisk ops contribution).has contribution.op = true := by
    intro ops
    simp only [noteRisk, hrisk]
    cases risk with
    | read => exact absurd rfl hread
    | mutation => simp
    | externalMutation => simp
  obtain ⟨before, after, hsplit⟩ := List.append_of_mem hmem
  change ((m.contributions.contract.foldl noteRisk OrderedMap.empty).has contribution.op) = true
  rw [hsplit, List.foldl_append, List.foldl_cons]
  exact hkept after _ _ (hnoted _)

lemma registerGraph_opRisk (S : Routes) (entry : CompositionEntry) (m : PluginManifest) :
    (S.registerGraph entry m).opRisk = S.opRisk := by
  unfold Routes.registerGraph
  cases S.kernel with
  | none => rfl
  | some k =>
    dsimp only
    split_ifs
    · rfl
    · cases k.enter entry m <;> rfl

lemma enrol_opRisk (S : Routes) (entry : CompositionEntry) (m : PluginManifest) :
    (S.enrol entry m).opRisk =
      (riskyOps m).entries.foldl (fun risks e => risks.set e.1 e.2) S.opRisk :=
  registerGraph_opRisk _ _ _

lemma foldl_set_has (entries : List (String × RiskClass)) (risks : OrderedMap String RiskClass)
    (op : String) :
    (entries.foldl (fun risks e => risks.set e.1 e.2) risks).has op = true ↔
      risks.has op = true ∨ op ∈ entries.map Prod.fst := by
  induction entries generalizing risks with
  | nil => simp
  | cons e rest ih =>
    rw [List.foldl_cons, ih, OrderedMap.has_set]
    simp only [Bool.or_eq_true, decide_eq_true_eq, List.map_cons, List.mem_cons]
    tauto

/-- Every declared risk is in the table the gate reads. -/
def RisksKnown (S : Routes) : Prop :=
  ∀ id m op, S.manifests.get? id = some m → (riskyOps m).has op = true → S.opRisk.has op = true

lemma RisksKnown.enrol {S : Routes} (h : RisksKnown S) (entry : CompositionEntry)
    (m : PluginManifest) : RisksKnown (S.enrol entry m) := by
  intro id m' op hm hop
  rw [enrol_opRisk, foldl_set_has]
  rw [Routes.enrol_manifests, OrderedMap.get?_set] at hm
  split_ifs at hm
  · cases hm
    obtain ⟨risk, hrisk⟩ := (OrderedMap.has_iff _ _).mp hop
    exact .inr (List.mem_map_of_mem (f := Prod.fst) (OrderedMap.mem_of_get? hrisk))
  · exact .inl (h id m' op hm hop)

lemma risksKnown_reachable {ok : PortRouter → Event → Prop} (h : (system manifests).Reachable ok R) :
    RisksKnown R.routes := by
  apply h.invariant
  · rintro R ⟨journaling, kernel, onDemandSpawn, rfl⟩ id m op hm
    cases hm
  · intro R e R' hR hrisks _ hs
    apply ((Wired.reachable hR).turns hs).invariant (J := fun S => RisksKnown S.routes) ?_ hrisks
    intro S S' ht hS
    rcases ht.registry with ⟨hmanifests, hopRisk, _⟩ | ⟨entry, m, tokens, henrol⟩
    · intro id m op hm hop
      rw [hmanifests] at hm
      rw [hopRisk]
      exact hS id m op hm hop
    · rw [henrol.routes]
      exact hS.enrol entry m

lemma opRisk_of_declared (hrisks : RisksKnown R.routes) {op : String} (h : R.DeclaredRisky op) :
    R.routes.opRisk.get? op ≠ none := by
  obtain ⟨id, m, contribution, risk, hm, hmem, rfl, hrisk, hread⟩ := h
  have hhas := hrisks id m _ hm (riskyOps_has hmem hrisk hread)
  intro hnone
  rw [(OrderedMap.has_eq_false _ _).mpr hnone] at hhas
  cases hhas

/-! ### The life of a frame -/

lemma Progress.calls (h : Progress R c f R') :
    ∃ stage, R'.calls = R.calls.set c { f with stage } := by
  cases h with
  | closed out => exact ⟨_, close_calls R c f out⟩
  | gated lawId => exact ⟨_, rfl⟩
  | executed hx =>
    obtain ⟨stage, _, hcalls⟩ := hx.calls
    exact ⟨stage, hcalls⟩

/-- What a frame holds when its call is opened. -/
structure Opens (R : PortRouter) (c : CausationId) (f : CallFrame) : Prop where
  next : c = causation (R.callSeq + 1)
  resolved : ∃ op, R.routes.resolveTarget f.principal op = some { impl := f.impl, op := f.op }
  risk : f.risk = R.routes.opRisk.get? f.op

lemma CallStep.opens (h : CallStep R e R') (hnew : R.calls.has c = false)
    (hf : R'.calls.get? c = some f) : Opens R c f := by
  have hnone : R.calls.get? c = none := (OrderedMap.has_eq_false _ _).mp hnew
  cases h with
  | aside haside =>
    rw [haside.calls, hnone] at hf
    cases hf
  | resumed c' _ hr =>
    obtain ⟨g, stage, hg, _, hcalls⟩ := resume_calls hr
    rw [hcalls, OrderedMap.get?_set] at hf
    split_ifs at hf with hc
    · rw [hc, hg] at hnone
      cases hnone
    · rw [hnone] at hf
      cases hf
  | opened S caller principal op payload deadlineMs onChunk target hview _ htarget =>
    let T : PortRouter := { S with callSeq := R.callSeq + 1 }
    let g := R.openFrame caller principal payload deadlineMs onChunk target
    obtain ⟨stage, hcalls⟩ := (runCall_progress T (causation (R.callSeq + 1)) g).calls
    have hT : T.calls.get? c = none := by rw [hview.opening.calls, hnone]
    rw [hcalls, OrderedMap.get?_set] at hf
    split_ifs at hf with hc
    · cases hf
      exact ⟨hc, ⟨op, htarget⟩, rfl⟩
    · rw [hT] at hf
      cases hf

lemma CallStep.kept (hW : R.Wired) (h : CallStep R e R') (hf : R.calls.get? c = some f) :
    ∃ stage, R'.calls.get? c = some { f with stage } := by
  cases h with
  | aside haside => exact ⟨f.stage, haside.calls.symm ▸ hf⟩
  | resumed c' _ hr =>
    obtain ⟨g, stage, hg, _, hcalls⟩ := resume_calls hr
    rw [hcalls, OrderedMap.get?_set]
    split_ifs with hc
    · subst hc
      rw [hf] at hg
      cases hg
      exact ⟨stage, rfl⟩
    · exact ⟨f.stage, hf⟩
  | opened S caller principal op payload deadlineMs onChunk target hview =>
    let T : PortRouter := { S with callSeq := R.callSeq + 1 }
    let g := R.openFrame caller principal payload deadlineMs onChunk target
    obtain ⟨stage, hcalls⟩ := (runCall_progress T (causation (R.callSeq + 1)) g).calls
    have hne : c ≠ causation (R.callSeq + 1) := by
      rintro rfl
      have hnew := hW.unopened_next
      rw [OrderedMap.has_of_get? hf] at hnew
      cases hnew
    refine ⟨f.stage, ?_⟩
    rw [hcalls, OrderedMap.get?_set_of_ne _ _ hne]
    exact hview.opening.calls.symm ▸ hf

/-! ### Runs -/

lemma Gated.fresh (journaling : Bool) (kernel : Option Kernel) (onDemandSpawn : Bool) :
    Gated Law (PortRouter.fresh journaling kernel onDemandSpawn) := by
  refine ⟨?_, ?_, ?_, ?_⟩ <;> simp [PortRouter.fresh]

lemma Gated.reachable (h : (system manifests).Reachable Decides R) :
    Gated (fun _ _ => True) R := by
  apply h.invariant
  · rintro R ⟨journaling, kernel, onDemandSpawn, rfl⟩
    exact .fresh _ _ _
  · intro R e R' hR hG hok hs
    exact hG.step (Wired.reachable hR) (fun _ _ => trivial) hok hs

/-- Only what is said about the calls that are open matters. -/
lemma Gated.relaw (h : Gated Law R)
    (hlaw : ∀ c id, R.calls.has c = true → Law c id → Law' c id) : Gated Law' R := by
  have hcleared : ∀ c f g, R.calls.get? c = some g → Cleared Law R c f → Cleared Law' R c f := by
    intro c f g hg hc
    refine hc.imp_right (fun ⟨d, hd, value, hl, hrest⟩ => ⟨d, hd, value, ?_, hrest⟩)
    exact hlaw c _ (OrderedMap.has_of_get? hg) hl
  refine ⟨h.housed, fun c f hf => ?_, fun d hd => ?_, fun n a ha => ?_⟩
  · have hstage := h.staged c f hf
    revert hstage
    cases f.stage with
    | opened => exact id
    | gate p =>
      rintro ⟨d, hd, hp, hl, hrest⟩
      exact ⟨d, hd, hp, hlaw c _ (OrderedMap.has_of_get? hf) hl, hrest⟩
    | spawn attempt => exact hcleared c f f hf
    | target p => exact hcleared c f f hf
    | closed out => exact fun ⟨hanswered, hout⟩ => ⟨hanswered, hout.imp_left (hcleared c f f hf)⟩
  · obtain ⟨f, hf, hmsg⟩ := h.delivered d hd
    refine ⟨f, hf, hmsg.imp (fun ⟨hm, hl⟩ => ⟨hm, ?_⟩) (fun ⟨hm, ht, hc⟩ => ⟨hm, ht, ?_⟩)⟩
    · exact hlaw _ _ (OrderedMap.has_of_get? hf) hl
    · exact hcleared _ f f hf hc
  · obtain ⟨c, f, hf, himpl, hc⟩ := h.spawned n a ha
    exact ⟨c, f, hf, himpl, hcleared c f f hf hc⟩

/-- The law of the call `c` is the one routed in `R₀`. -/
def RoutedFor (R₀ : PortRouter) (c c' : CausationId) (id : String) : Prop :=
  c' = c → R₀.routes.opRoute.get? "law.check@1" = some id

/-- The call `c` with the frame `f`, opened in state `R₀`, in a later state `R`. -/
structure FailClosed (manifests : OrderedMap String PluginManifest) (R₀ : PortRouter)
    (c : CausationId) (f : CallFrame) (R : PortRouter) : Prop where
  effective : ∃ op, R₀.routes.resolveTarget f.principal op = some { impl := f.impl, op := f.op }
  kept : ∃ stage, R.calls.get? c = some { f with stage }
  sent : ∀ id msg, .posted id (.deliver msg) ∈ R.ports.trace → msg.causationId = c →
    (msg = gateMsg f.principal f.op f.payload c ∧
      R₀.routes.opRoute.get? "law.check@1" = some id) ∨
    (msg = targetMsg c f ∧ id = f.impl ∧ Allowed (RoutedFor R₀ c) R c f)
  spawned : ∀ n a, R.spawner.attempts.get? n = some a →
    ∃ c' f', R.calls.get? c' = some f' ∧ f'.impl = a.id ∧ Cleared (RoutedFor R₀ c) R c' f'
  refused : ∀ out, R.calls.get? c = some { f with stage := .closed out } →
    Allowed (RoutedFor R₀ c) R c f ∨ (IsError out ∧ Answered R f.caller out)
  answered : ∀ p r, R.calls.get? c = some { f with stage := .gate p } →
    (p, r) ∈ R.ports.resolved → Allowed (RoutedFor R₀ c) R c f ∨
      ∃ R' out, PortRouter.step manifests R (.resume c) = some R' ∧
        R'.calls.get? c = some { f with stage := .closed out } ∧ IsError out ∧
        Answered R' f.caller out ∧ R'.ports.accepted = R.ports.accepted ∧ R'.spawner = R.spawner

/-- Without an `allow` the continuation of a call at its gate refuses it and does nothing else. -/
lemma Gated.refuses (h : Gated Law R) {p : ℕ} {r : PortResult}
    (hf : R.calls.get? c = some { f with stage := .gate p }) (hr : (p, r) ∈ R.ports.resolved) :
    Allowed Law R c f ∨ ∃ R' out, PortRouter.step manifests R (.resume c) = some R' ∧
      R'.calls.get? c = some { f with stage := .closed out } ∧ IsError out ∧
      Answered R' f.caller out ∧ R'.ports.accepted = R.ports.accepted ∧ R'.spawner = R.spawner := by
  have hstage : StageOk Law R c { f with stage := .gate p } (.gate p) := h.staged c _ hf
  obtain ⟨d, hd, _, hlaw, hmsg, hattested⟩ := hstage
  have hkey : d.key = c := by rw [Delivery.key, hmsg]; rfl
  -- the continuation sees the first result of its promise
  obtain ⟨x, hx⟩ : ∃ x, R.ports.resolved.find? (fun e => e.1 = p) = some x := by
    cases hfind : R.ports.resolved.find? (fun e => e.1 = p) with
    | some x => exact ⟨x, rfl⟩
    | none =>
      have hnone := List.find?_eq_none.mp hfind _ hr
      simp at hnone
  have hxp : x.1 = p := by simpa using List.find?_some hx
  have hres : (p, x.2) ∈ R.ports.resolved := hxp ▸ List.mem_of_find?_eq_some hx
  have hstep : PortRouter.step manifests R (.resume c) =
      some (R.afterGate c { f with stage := .gate p } x.2) := by
    simp [PortRouter.step, PortRouter.resume, hf, hx]
  obtain ⟨J, ⟨code, detail, report, heq⟩ | ⟨value, message, hvalue, hnone, _⟩ |
    ⟨value, hvalue, ⟨decision, hdecision, hdeny, hconsent⟩, _⟩⟩ :=
      afterGate_cases R c { f with stage := .gate p } x.2
  · let S : PortRouter := { R with lawJournal := J }
    let out : Outcome := .result (.error code detail report)
    have hhoused : ∀ id callId, f.caller = .compartment id callId → S.compartments.has id = true :=
      fun id callId hc => h.housed c { f with stage := .gate p } id callId hf hc
    let T := S.setCall c { f with stage := .closed out }
    have ha : Aside T (T.reply f.caller out) := .reply T f.caller out
    have hspawner : (T.reply f.caller out).spawner = R.spawner := by
      rcases reply_shape T f.caller out with ⟨L, hshape⟩ | ⟨id, callId, r, hshape⟩
      · rw [hshape]
        rfl
      · rw [hshape]
        rfl
    refine .inr ⟨T.reply f.caller out, out, by rw [hstep, heq]; rfl, ?_, ⟨code, detail, report, rfl⟩,
      reply_answered T f.caller out hhoused, ha.grows.accepted, hspawner⟩
    rw [ha.calls]
    exact OrderedMap.get?_set_self _ _ _
  · rcases hattested _ hres value hvalue with (hbad | hbad) | ⟨hbad, _⟩ <;>
      simp [DecisionIs, hnone] at hbad
  · rcases hattested _ hres value hvalue with (hbad | hbad) | ⟨hallow, hreceived⟩
    · simp [DecisionIs, hdecision, hdeny] at hbad
    · simp [DecisionIs, hdecision, hconsent] at hbad
    · rw [hvalue, hkey] at hreceived
      exact .inl ⟨d, hd, value, hlaw, hmsg, hallow, hreceived⟩

theorem gate_complete (manifests : OrderedMap String PluginManifest) (R₀ R₁ R : PortRouter)
    (e : Event) (c : CausationId) (f : CallFrame) (h : (system manifests).Reachable Decides R₀)
    (hok : R₀.Decides e) (hs : PortRouter.step manifests R₀ e = some R₁)
    (hnew : R₀.calls.has c = false) (hf : R₁.calls.get? c = some f)
    (hrisky : R₀.DeclaredRisky f.op) (hrun : (system manifests).Later Decides R₁ R) :
    FailClosed manifests R₀ c f R := by
  have hopens := (CallStep.of_step hs).opens hnew hf
  have hrisk : f.risk ≠ none := by
    rw [hopens.risk]
    exact opRisk_of_declared (risksKnown_reachable h) hrisky
  have hG₀ : Gated (RoutedFor R₀ c) R₀ := by
    refine (Gated.reachable h).relaw (fun c' id hc' _ hcc => ?_)
    rw [hcc, hnew] at hc'
    cases hc'
  have hG₁ : Gated (RoutedFor R₀ c) R₁ :=
    hG₀.step (Wired.reachable h) (fun id hroute _ => hroute) hok hs
  have hR₁ : (system manifests).Reachable Decides R₁ := .next h hok hs
  -- along the rest of the run the frame stays, so no later call takes its id
  obtain ⟨hR, hG, stage, hkept⟩ : (system manifests).Reachable Decides R ∧
      Gated (RoutedFor R₀ c) R ∧ ∃ stage, R.calls.get? c = some { f with stage } := by
    refine hrun.invariant (P := fun S => (system manifests).Reachable Decides S ∧
      Gated (RoutedFor R₀ c) S ∧ ∃ stage, S.calls.get? c = some { f with stage })
      ⟨hR₁, hG₁, f.stage, hf⟩ ?_
    rintro S e' S' ⟨hS, hG, stage, hkept⟩ hok' hs'
    have hW := Wired.reachable hS
    have hG' : Gated (RoutedFor R₀ c) S' := by
      refine hG.step hW (fun id _ hcc => ?_) hok' hs'
      have hunopened := hW.unopened_next
      rw [hcc, OrderedMap.has_of_get? hkept] at hunopened
      cases hunopened
    obtain ⟨stage', hkept'⟩ := (CallStep.of_step hs').kept hW hkept
    exact ⟨.next hS hok' hs', hG', stage', hkept'⟩
  have hallowed : Cleared (RoutedFor R₀ c) R c f → Allowed (RoutedFor R₀ c) R c f :=
    fun hc => hc.resolve_left hrisk
  refine ⟨hopens.resolved, ⟨stage, hkept⟩, ?_, hG.spawned, ?_, fun p r hp hr => hG.refuses hp hr⟩
  · intro id msg hpost hmsg
    obtain ⟨d, hd, rfl, rfl⟩ := sent_reachable hR id msg hpost
    obtain ⟨f', hf', hwhich⟩ := hG.delivered d hd
    have hkey : d.key = c := hmsg
    rw [hkey, hkept] at hf'
    cases hf'
    rw [hkey] at hwhich
    rcases hwhich with ⟨hm, hlaw⟩ | ⟨hm, ht, hc⟩
    · exact .inl ⟨hm, hlaw rfl⟩
    · exact .inr ⟨hm, ht, hallowed hc⟩
  · intro out hout
    have hstage : StageOk (RoutedFor R₀ c) R c { f with stage := .closed out } (.closed out) :=
      hG.staged c _ hout
    exact hstage.2.imp (fun hc => hallowed hc) (fun herror => ⟨herror, hstage.1⟩)

/-! ### A call of the sample composition -/

/-- The frame of the first call, opened over the sample manifests. -/
def openedPut (R₀ R₁ : PortRouter) : Bool :=
  decide (R₀.calls.has "c_1" = false) &&
    (R₀.routes.manifests.get? "notes").any (fun m => m.contributions.contract.any
      (fun c => decide (c.op = "notes.put@1" ∧ c.risk = some .mutation))) &&
    decide ((R₁.calls.get? "c_1").map CallFrame.op = some "notes.put@1")

lemma openedPut_spec (h : openedPut R₀ R₁ = true) :
    R₀.calls.has "c_1" = false ∧ ∃ f, R₁.calls.get? "c_1" = some f ∧ R₀.DeclaredRisky f.op := by
  simp only [openedPut, Bool.and_eq_true, decide_eq_true_eq] at h
  obtain ⟨⟨hnew, hdeclared⟩, hop⟩ := h
  obtain ⟨f, hf, hfop⟩ := Option.map_eq_some_iff.mp hop
  obtain ⟨m, hm, hany⟩ := (Option.any_eq_true _ _).mp hdeclared
  obtain ⟨contribution, hmem, hc⟩ := List.any_eq_true.mp hany
  obtain ⟨hcop, hrisk⟩ := of_decide_eq_true hc
  refine ⟨hnew, f, hf, "notes", m, contribution, .mutation, hm, hmem, ?_, hrisk, by decide⟩
  rw [hcop, hfop]

theorem gate_complete_allowed :
    ∃ R₀ f R, R.ports.deliveredTo "notes" "c_1" = true ∧
      FailClosed (Sample.manifests none none) R₀ "c_1" f R := by
  let M := system (Sample.manifests none none)
  have hbefore : (M.exec Decides Sample.start Sample.boot).map (fun R₀ =>
      ((PortRouter.step (Sample.manifests none none) R₀ Sample.put).map
        (openedPut R₀)).getD false) = some true := by decide
  have hafter : (M.exec Decides Sample.start (Sample.boot ++ Sample.put ::
      [Sample.answer "vivim.law" "c_1" (Sample.decision "allow"), .resume "c_1"])).map
      (fun R => R.ports.deliveredTo "notes" "c_1") = some true := by decide
  obtain ⟨R₀, R₁, R, hR₀, hopened, hok, hs, _, hlater, hdelivered⟩ :=
    System.exec_split (Sample.start_init _) hbefore hafter
  have hs' : PortRouter.step (Sample.manifests none none) R₀ Sample.put = some R₁ := hs
  rw [hs'] at hopened
  obtain ⟨hnew, f, hf, hrisky⟩ := openedPut_spec hopened
  exact ⟨R₀, f, R, hdelivered, gate_complete _ R₀ R₁ R _ "c_1" f hR₀ hok hs' hnew hf hrisky hlater⟩

/-- Not a return that says `allow`. -/
def unallowed : Wire → Bool
  | .received _ (.ret _ (.ok value)) => !decide (DecisionIs value "allow")
  | _ => true

/-- The law says neither `allow`, nor `deny`, nor `require-consent`, and the note store is called. -/
theorem gate_complete_undecided :
    ¬ ∀ (manifests : OrderedMap String PluginManifest) (R₀ R₁ R : PortRouter) (e : Event)
      (c : CausationId) (f : CallFrame), (system manifests).Reachable System.free R₀ →
      PortRouter.step manifests R₀ e = some R₁ → R₀.calls.has c = false →
      R₁.calls.get? c = some f → R₀.DeclaredRisky f.op →
      (system manifests).Later System.free R₁ R → FailClosed manifests R₀ c f R := by
  intro hclaim
  let M := system (Sample.manifests none none)
  have hbefore : (M.exec System.free Sample.start Sample.boot).map (fun R₀ =>
      ((PortRouter.step (Sample.manifests none none) R₀ Sample.put).map
        (openedPut R₀)).getD false && decide (R₀.routes.opRoute.get? "law.check@1" ≠ some "notes")) =
        some true := by decide
  have hafter : (M.exec System.free Sample.start (Sample.boot ++ Sample.put ::
      [Sample.answer "vivim.law" "c_1" (Sample.decision "maybe"), .resume "c_1"])).map
      (fun R => R.ports.deliveredTo "notes" "c_1" && R.ports.trace.all unallowed) =
        some true := by decide
  obtain ⟨R₀, R₁, R, hR₀, hbool, _, hs, _, hlater, hend⟩ :=
    System.exec_split (Sample.start_init _) hbefore hafter
  have hs' : PortRouter.step (Sample.manifests none none) R₀ Sample.put = some R₁ := hs
  rw [hs', Bool.and_eq_true] at hbool
  obtain ⟨hnew, f, hf, hrisky⟩ := openedPut_spec hbool.1
  have hroute := of_decide_eq_true hbool.2
  obtain ⟨hdelivered, hunallowed⟩ := (Bool.and_eq_true _ _).mp hend
  have hclosed := hclaim _ R₀ R₁ R _ "c_1" f hR₀ hs' hnew hf hrisky hlater
  obtain ⟨w, hw, hwhich⟩ := List.any_eq_true.mp hdelivered
  split at hwhich
  · rename_i id' msg
    simp only [Bool.and_eq_true, decide_eq_true_eq] at hwhich
    obtain ⟨rfl, hkey⟩ := hwhich
    rcases hclosed.sent "notes" msg hw hkey with ⟨_, hlaw⟩ | ⟨_, _, d, _, value, _, _, hallow, hreceived⟩
    · exact hroute hlaw
    · have hno := List.all_eq_true.mp hunallowed _ hreceived
      simp [unallowed, hallow] at hno
  · cases hwhich

end PortRouter

end VivimOmega.Host

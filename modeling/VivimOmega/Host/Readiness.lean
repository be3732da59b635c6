import VivimOmega.Host.Flights
import VivimOmega.Host.Gate

/-! Readiness: when a lazily spawned compartment gets its first `deliver`. Those who wait for the
spawn come after `ready`; those who call in between registration and `ready` do not wait. -/

namespace VivimOmega.Host

open Library Contracts

namespace PortRouter

variable {R R' R₀ R₁ S S' B B' : PortRouter} {manifests : OrderedMap String PluginManifest}
  {e : Event} {id : String} {c : CausationId} {f : CallFrame}

/-- The compartment has said `ready`. -/
def Reported (P : Ports) (id : String) : Prop :=
  P.trace.any (fun w => match w with
    | .received id' .ready => id' = id
    | _ => false) = true

instance (P : Ports) (id : String) : Decidable (Reported P id) :=
  inferInstanceAs (Decidable (_ = true))

lemma reported_iff (P : Ports) (id : String) : Reported P id ↔ .received id .ready ∈ P.trace := by
  rw [Reported, List.any_eq_true]
  constructor
  · rintro ⟨w, hw, hwhich⟩
    split at hwhich
    · rw [of_decide_eq_true hwhich] at hw
      exact hw
    · cases hwhich
  · exact fun hw => ⟨_, hw, decide_eq_true rfl⟩

/-- Every `deliver` to the compartment was posted after its `ready`. -/
def ReadyFirst (id : String) (P : Ports) : Prop :=
  ∀ l₁ msg l₂, P.trace = l₁ ++ .posted id (.deliver msg) :: l₂ → .received id .ready ∈ l₂

/-! ### Who is called by an event -/

/-- What the op of the event resolves to, if the event opens a call. -/
def opening (R : PortRouter) (e : Event) : Option Routes.Target :=
  (R.request? e).bind (fun r => R.routes.resolveTarget r.1 r.2)

/-- The target of a call that goes to its target at once, or now that its gate has let it through. -/
def callsTarget (R : PortRouter) : Event → Option String
  | .resume c => (R.calls.get? c).bind (fun f =>
    match f.stage with
    | .gate p => (R.ports.resolved.find? (fun e => e.1 = p)).bind (fun x =>
      match x.2 with
      | .ok value => if Refuses value then none else some f.impl
      | .error .. => none)
    | _ => none)
  | e => (R.opening e).bind (fun t =>
    if (R.routes.opRisk.get? t.op).isNone then some t.impl else none)

/-- The law, for a call that goes to its gate. -/
def callsLaw (R : PortRouter) (e : Event) : Option String :=
  (R.opening e).bind (fun t =>
    if (R.routes.opRisk.get? t.op).isSome then R.routes.opRoute.get? "law.check@1" else none)

/-- No call is opened for, or let through its gate to, the compartment while it is booting, and no
gate delivery is made to it before it has said `ready`. -/
def Patient (id : String) (R : PortRouter) (e : Event) : Prop :=
  (R.callsTarget e = some id → R.stateOf id ≠ some .booting) ∧
    (R.callsLaw e = some id → Reported R.ports id)

instance (id : String) (R : PortRouter) (e : Event) : Decidable (Patient id R e) :=
  inferInstanceAs (Decidable (_ ∧ _))

/-! ### New deliveries -/

/-- Why a delivery to a compartment is accepted in the step that `e` causes in state `R`. -/
inductive Addressed (R : PortRouter) (e : Event) (id : String) : Prop
  | law : R.callsLaw e = some id → Addressed R e id
  | target : R.callsTarget e = some id → R.stateOf id = some .booting ∨ R.stateOf id = some .active →
    Addressed R e id
  | spawned (c : CausationId) (f : CallFrame) (n : ℕ) (a : SpawnAttempt) : R.calls.get? c = some f →
    f.stage = .spawn n → f.impl = id → R.spawner.attempts.get? n = some a → a.phase = .over none →
    Addressed R e id

lemma close_accepted (B : PortRouter) (c : CausationId) (f : CallFrame) (out : Outcome) :
    (B.close c f out).ports.accepted = B.ports.accepted := (close_grows B c f out).accepted

lemma Executed.accepted (hx : Executed B c f B') {d : Delivery} (hd : d ∈ B'.ports.accepted) :
    d ∈ B.ports.accepted ∨ (d.targetId = f.impl ∧
      (B.stateOf f.impl = some .booting ∨ B.stateOf f.impl = some .active)) := by
  cases hx with
  | failed =>
    rw [finish, close_accepted] at hd
    exact .inl hd
  | joined => exact .inl hd
  | spawned => exact .inl hd
  | targeted h hget hstopped hdegraded =>
    have hd' : d ∈ (B.accept f.impl (targetMsg c f) f.onChunk).ports.accepted := hd
    rw [accept_accepted] at hd'
    rcases List.mem_append.mp hd' with hold | hnew
    · exact .inl hold
    · refine .inr ⟨by rw [List.mem_singleton.mp hnew]; rfl, ?_⟩
      have hstate : B.stateOf f.impl = some h.state := by rw [stateOf, hget, Option.map_some]
      rw [hstate]
      cases hs : h.state with
      | booting => exact .inl rfl
      | active => exact .inr rfl
      | degraded => exact absurd hs hdegraded
      | stopped => exact absurd hs hstopped

lemma resume_gate {p : ℕ} (hf : R.calls.get? c = some f) (hs : f.stage = .gate p)
    (hr : R.resume c = some R') :
    ∃ x, R.ports.resolved.find? (fun e => e.1 = p) = some x ∧ R' = R.afterGate c f x.2 := by
  unfold resume at hr
  rw [hf] at hr
  simp only [Option.bind_eq_bind, Option.bind_some, hs] at hr
  obtain ⟨x, hx, hr⟩ := Option.bind_eq_some_iff.mp hr
  exact ⟨x, hx, (Option.some.inj hr).symm⟩

lemma Passes.not_refuses {value : JsValue} (h : Passes value) : ¬ Refuses value := by
  obtain ⟨decision, hdecision, hdeny, hconsent⟩ := h
  rintro (hd | hd)
  · rw [DecisionIs, hdecision] at hd
    exact hdeny hd
  · rw [DecisionIs, hdecision] at hd
    exact hconsent hd

lemma CallStep.addressed (h : CallStep R e R') {d : Delivery} (hd : d ∈ R'.ports.accepted) :
    d ∈ R.ports.accepted ∨ Addressed R e d.targetId := by
  cases h with
  | aside haside =>
    rw [haside.grows.accepted] at hd
    exact .inl hd
  | opened S caller principal op payload deadlineMs onChunk target hview hrequest htarget =>
    let T : PortRouter := { S with callSeq := R.callSeq + 1 }
    let g := R.openFrame caller principal payload deadlineMs onChunk target
    have hT : T.ports.accepted = R.ports.accepted := hview.opening.grows.accepted
    have hopening : R.opening e = some target := by
      rw [opening, hrequest]
      exact htarget
    have hevent : ∀ c, e ≠ .resume c := by
      rintro c rfl
      cases hrequest
    have hcalls : R.callsTarget e = if (R.routes.opRisk.get? target.op).isNone then some target.impl
        else none := by
      have hdefault : R.callsTarget e = (R.opening e).bind (fun t =>
          if (R.routes.opRisk.get? t.op).isNone then some t.impl else none) := by
        cases e with
        | resume c => exact absurd rfl (hevent c)
        | _ => rfl
      rw [hdefault, hopening]
      rfl
    rcases runCall_cases T (causation (R.callSeq + 1)) g with
      ⟨hrisk, heq⟩ | ⟨_, code, detail, report, heq⟩ | ⟨hrisk, lawId, hroute, _, heq⟩
    · rw [heq] at hd
      rcases (execute_executed T _ g).accepted hd with hold | ⟨himpl, hstate⟩
      · exact .inl (hT ▸ hold)
      · have hnone : R.routes.opRisk.get? target.op = none := hrisk
        rw [hnone] at hcalls
        have hsame : T.stateOf g.impl = R.stateOf g.impl := hview.states g.impl
        rw [hsame] at hstate
        rw [himpl]
        exact .inr (.target hcalls hstate)
    · rw [heq, finish, close_accepted, hT] at hd
      exact .inl hd
    · rw [heq] at hd
      let msg := gateMsg g.principal g.op g.payload (causation (R.callSeq + 1))
      have hd' : d ∈ (T.accept lawId msg false).ports.accepted := hd
      rw [accept_accepted, hT] at hd'
      rcases List.mem_append.mp hd' with hold | hnew
      · exact .inl hold
      · have hsome : (R.routes.opRisk.get? target.op).isSome = true :=
          Option.isSome_iff_ne_none.mpr hrisk
        have hroute' : R.routes.opRoute.get? "law.check@1" = some lawId := by
          rw [← hview.routes]
          exact hroute
        rw [List.mem_singleton.mp hnew]
        refine .inr (.law ?_)
        rw [callsLaw, hopening, Option.bind_some, if_pos hsome, hroute']
        rfl
  | resumed c he hr =>
    obtain ⟨f, hf, hcases⟩ := resume_cases R c hr
    rcases hcases with ⟨p, r, hs, hres, rfl⟩ | ⟨p, r, _, _, rfl⟩ |
      ⟨n, a, err, hs, ha, hphase, ⟨rfl, rfl⟩ | ⟨text, _, rfl⟩⟩
    · obtain ⟨x, hx, heq⟩ := resume_gate hf hs hr
      rw [heq] at hd
      obtain ⟨J, ⟨code, detail, report, hgate⟩ | ⟨_, message, _, _, hgate⟩ |
        ⟨value, hvalue, hpasses, hgate⟩⟩ := afterGate_cases R c f x.2
      · rw [hgate, finish, close_accepted] at hd
        exact .inl hd
      · rw [hgate, close_accepted] at hd
        exact .inl hd
      · rw [hgate] at hd
        rcases (execute_executed { R with lawJournal := J } c f).accepted hd with
          hold | ⟨himpl, hstate⟩
        · exact .inl hold
        · refine .inr (.target ?_ (himpl ▸ hstate))
          simp only [he, callsTarget, hf, hs, hx, hvalue, Option.bind_some,
            if_neg hpasses.not_refuses, himpl]
    · rw [finish, close_accepted] at hd
      exact .inl hd
    · rcases (handOver_executed R c f).accepted hd with hold | ⟨himpl, _⟩
      · exact .inl hold
      · exact .inr (.spawned c f n a hf hs himpl.symm ha hphase)
    · rw [finish, close_accepted] at hd
      exact .inl hd

/-! ### A call that waits for a spawn waits for the spawn of its target -/

def Joined (R : PortRouter) : Prop :=
  ∀ c f n, R.calls.get? c = some f → f.stage = .spawn n →
    ∃ a, R.spawner.attempts.get? n = some a ∧ a.id = f.impl

lemma Progress.spawn_stage (h : Progress B c f B') (hF : B.Flying) {c' : CausationId}
    {g : CallFrame} {n : ℕ} (hg : B'.calls.get? c' = some g) (hs : g.stage = .spawn n) :
    B.calls.get? c' = some g ∨ ∃ a, B'.spawner.attempts.get? n = some a ∧ a.id = g.impl := by
  have hset : ∀ stage, B'.calls = B.calls.set c { f with stage } → (∀ n, stage ≠ .spawn n) →
      B.calls.get? c' = some g := by
    intro stage hcalls hne
    rw [hcalls, OrderedMap.get?_set] at hg
    split_ifs at hg
    · cases hg
      exact absurd hs (hne n)
    · exact hg
  have hparked : ∀ m, B'.calls = B.calls.set c { f with stage := .spawn m } →
      B.calls.get? c' = some g ∨ (m = n ∧ g.impl = f.impl) := by
    intro m hcalls
    rw [hcalls, OrderedMap.get?_set] at hg
    split_ifs at hg
    · cases hg
      cases hs
      exact .inr ⟨rfl, rfl⟩
    · exact .inl hg
  cases h with
  | closed out => exact .inl (hset _ (close_calls B c f out) (fun _ h => by cases h))
  | gated lawId => exact .inl (hset _ rfl (fun _ h => by cases h))
  | executed hx =>
    cases hx with
    | failed code detail => exact .inl (hset _ (close_calls B c f _) (fun _ h => by cases h))
    | targeted hh => exact .inl (hset _ rfl (fun _ h => by cases h))
    | joined m _ hflight =>
      rcases hparked m rfl with hold | ⟨rfl, himpl⟩
      · exact .inl hold
      · obtain ⟨a, ha, hid, _⟩ := hF.flown f.impl m hflight
        exact .inr ⟨a, ha, hid.trans himpl.symm⟩
    | spawned d =>
      rcases hparked B.spawner.attemptSeq rfl with hold | ⟨rfl, himpl⟩
      · exact .inl hold
      · exact .inr ⟨_, OrderedMap.get?_set_self _ _ _, himpl.symm⟩

lemma joined_reachable {ok : PortRouter → Event → Prop} (h : (system manifests).Reachable ok R) :
    Joined R := by
  apply h.invariant
  · rintro R ⟨journaling, kernel, onDemandSpawn, rfl⟩ c f n hf
    cases hf
  · intro R e R' hR hJ _ hs
    have hF := Flying.reachable hR
    have hadvanced := Flying.advanced (Wired.reachable hR) hF hs
    intro c f n hf hstage
    have hold : R.calls.get? c = some f → ∃ a, R'.spawner.attempts.get? n = some a ∧ a.id = f.impl := by
      intro hf'
      obtain ⟨a, ha, hid⟩ := hJ c f n hf' hstage
      obtain ⟨a', ha', hid', _⟩ := hadvanced.kept n a ha
      exact ⟨a', ha', hid'.trans hid⟩
    rcases (CallStep.of_step hs).progress with haside | ⟨B, c', g, haside, hspawner, hstates, hp⟩
    · exact hold (haside.calls ▸ hf)
    · have hBF : B.Flying := by
        rw [PortRouter.Flying, hspawner]
        have hhas : ∀ id, B.compartments.has id = R.compartments.has id := by
          intro id
          have hstate := congrArg Option.isSome (hstates id)
          simpa only [stateOf, Option.isSome_map, OrderedMap.has] using hstate
        exact hF.housing (fun id hid => (hhas id).trans hid) (fun id hid => .inl ((hhas id) ▸ hid))
      rcases hp.spawn_stage hBF hf hstage with hf' | hnew
      · exact hold (haside.calls ▸ hf')
      · exact hnew

/-! ### What is put on the wire in a step -/

lemma Moves.readyFirst {P Q : Ports} (h : Moves R e P Q) (hP : P.Sound)
    (hready : .received id .ready ∈ P.trace ∨ ∀ d ∈ Q.accepted, d.targetId ≠ id)
    (hfirst : ReadyFirst id P) : ReadyFirst id Q := by
  suffices hall : Q.Sound ∧ (∀ w ∈ P.trace, w ∈ Q.trace) ∧ ReadyFirst id Q from hall.2.2
  induction h with
  | refl => exact ⟨hP, fun _ hw => hw, hfirst⟩
  | @tail Q S _ hm ih =>
    obtain ⟨hQ, hkept, hQfirst⟩ := ih (hready.imp_right
      (fun hnone d hd => hnone d (hm.accepted hd)))
    refine ⟨hm.sound hQ, fun w hw => hm.trace (hkept w hw), ?_⟩
    -- whatever is posted to the compartment finds its `ready` on the wire
    have hposted : ∀ w ws, S.trace = ws ++ Q.trace → w ∈ ws → ∀ msg,
        w = .posted id (.deliver msg) → (∃ d ∈ S.accepted, w = .posted d.targetId (.deliver d.msg)) →
        .received id .ready ∈ Q.trace := by
      rintro w ws _ _ msg rfl ⟨d, hd, heq⟩
      cases heq
      rcases hready with hready | hnone
      · exact hkept _ hready
      · exact absurd rfl (hnone d hd)
    have hextend : ∀ ws, S.trace = ws ++ Q.trace →
        (∀ w ∈ ws, IsDeliver w → ∃ d ∈ S.accepted, w = .posted d.targetId (.deliver d.msg)) →
        ReadyFirst id S := by
      intro ws htrace hws l₁ msg l₂ hsplit
      rw [htrace] at hsplit
      rcases List.append_eq_append_iff.mp hsplit with ⟨as, rfl, hQ⟩ | ⟨bs, hbs, htail⟩
      · exact hQfirst as msg l₂ hQ
      · cases bs with
        | nil => exact hQfirst [] msg l₂ (by simpa using htail.symm)
        | cons w bs =>
          obtain ⟨rfl, hl₂⟩ := List.cons_eq_cons.mp htail
          have hmem : .posted id (.deliver msg) ∈ ws := hbs ▸ List.mem_append_right _ List.mem_cons_self
          rw [hl₂]
          exact List.mem_append_right _ (hposted _ ws htrace hmem msg rfl (hws _ hmem trivial))
    rcases hm.relays hQ with ⟨ws, htrace, hws⟩ | ⟨target, msg, onChunk, rfl⟩
    · exact hextend ws htrace (fun w hw hd => by
        obtain ⟨d, hda, heq⟩ := hws w hw hd
        exact ⟨d, hm.accepted hda, heq⟩)
    · rcases Ports.accept_trace (P := Q) (R.routes.maxInflight target) target msg onChunk
        (R.routes.priorityOf msg.op) with hsame | ⟨d, hd, hpost⟩
      · exact hextend [] hsame (fun w hw => by cases hw)
      · refine hextend [.posted d.targetId (.deliver d.msg)] hpost (fun w hw _ => ⟨d, ?_, ?_⟩)
        · rw [Ports.accepted_accept]
          exact List.mem_append_right _ hd
        · exact List.mem_singleton.mp hw

/-! ### What a lazily spawned compartment is sent -/

/-- A compartment turns active by its `ready` message only. -/
lemma Turn.active (ht : Turn manifests R e S S') (hstate : S'.stateOf id = some .active) :
    S.stateOf id = some .active ∨ e = .message id .ready := by
  have hset : ∀ {g : CompartmentHandle → CompartmentHandle} {id'},
      (S.setState id' g).stateOf id = some .active →
      (∀ h, (g h).state = .active → h.state = .active) → S.stateOf id = some .active := by
    intro g id' h hg
    rw [setState_stateOf] at h
    split_ifs at h with hid
    · obtain ⟨handle, hget, hactive⟩ := Option.map_eq_some_iff.mp h
      rw [hid, stateOf, hget, Option.map_some, hg handle hactive]
    · exact h
  have hregister : ∀ entry m tokens, (S.register entry m tokens).stateOf id = some .active →
      S.stateOf id = some .active := by
    intro entry m tokens h
    simp only [PortRouter.register, stateOf, OrderedMap.get?_set] at h
    split_ifs at h with hid
    · cases h
    · exact h
  cases ht with
  | registered entry m tokens => exact .inl (hregister entry m tokens hstate)
  | arrived id' n a => exact .inl (hregister _ _ _ hstate)
  | readied _ id' he =>
    by_cases hid : id = id'
    · exact .inr (hid ▸ he)
    · rw [setState_stateOf, if_neg hid] at hstate
      exact .inl hstate
  | called _ id' => exact .inl (hset hstate (fun _ h => h))
  | crashed _ id' err => exact .inl (hset hstate (fun _ h => by cases h))
  | stopped _ id' => exact .inl (hset hstate (fun _ h => by cases h))
  | waiting _ id' n =>
    obtain ⟨A, W, heq⟩ := waitActive_shape S id' n
    rw [heq] at hstate
    exact .inl hstate
  | missed =>
    rw [setPhase_shape] at hstate
    exact .inl hstate
  | landed =>
    rw [setPhase_shape] at hstate
    exact .inl hstate
  | woken _ id' err =>
    obtain ⟨A, W, heq⟩ := wakeReady_shape S id' err
    rw [heq] at hstate
    exact .inl hstate
  | dormant => exact .inl hstate
  | tables => exact .inl hstate
  | noted => exact .inl hstate
  | counted => exact .inl hstate
  | framed => exact .inl hstate
  | started => exact .inl hstate
  | revoked => exact .inl hstate
  | arbitrated => exact .inl hstate

lemma Wired.active (hW : R.Wired) (hs : PortRouter.step manifests R e = some R')
    (hstate : R'.stateOf id = some .active) :
    R.stateOf id = some .active ∨ e = .message id .ready := by
  refine (hW.turns hs).invariant (J := fun S => S.stateOf id = some .active →
    R.stateOf id = some .active ∨ e = .message id .ready) (fun S S' ht hS hactive => ?_) .inl hstate
  rcases ht.active hactive with hold | he
  · exact hS hold
  · exact .inr he

lemma step_ready (hs : PortRouter.step manifests R (.message id .ready) = some R') :
    R.compartments.has id = true ∧ Reported R'.ports id := by
  simp only [PortRouter.step] at hs
  split_ifs at hs with hhas
  cases hs
  refine ⟨hhas, (reported_iff _ _).mpr ?_⟩
  have hports : ((R.receive id .ready).onWorkerMessage id .ready).ports =
      R.ports.receive id .ready := by
    rw [PortRouter.onWorkerMessage, PortRouter.onReady, wakeReady_ports, setState_ports]
    rfl
  rw [hports]
  exact List.mem_cons_self

lemma Wired.trace (hW : R.Wired) (hs : PortRouter.step manifests R e = some R') {w : Wire}
    (hw : w ∈ R.ports.trace) : w ∈ R'.ports.trace :=
  (hW.moves hs).invariant (I := fun P => w ∈ P.trace) (fun _ _ hm hP => hm.trace hP) hw

/-- A flight of the compartment has succeeded. -/
def Succeeded (phase : SpawnPhase) : Prop := phase = .settled none ∨ phase = .over none

/-- Whatever could make the router call the compartment comes after its `ready`. -/
structure Readied (id : String) (R : PortRouter) : Prop where
  first : ReadyFirst id R.ports
  accepted : ∀ d ∈ R.ports.accepted, d.targetId = id → Reported R.ports id
  active : R.stateOf id = some .active → Reported R.ports id
  flown : ∀ n a, R.spawner.attempts.get? n = some a → a.id = id → Succeeded a.phase →
    Reported R.ports id

lemma Readied.step (hR : (system manifests).Reachable System.free R) (h : Readied id R)
    (hok : Patient id R e) (hs : PortRouter.step manifests R e = some R') : Readied id R' := by
  have hW := Wired.reachable hR
  have hF := Flying.reachable hR
  have hkept : Reported R.ports id → Reported R'.ports id := by
    rw [reported_iff, reported_iff]
    exact hW.trace hs
  -- a delivery to the compartment is accepted after its `ready` only
  have haccepted : ∀ d ∈ R'.ports.accepted, d.targetId = id → Reported R.ports id := by
    rintro d hd rfl
    rcases (CallStep.of_step hs).addressed hd with hold | hwhy
    · exact h.accepted d hold rfl
    · cases hwhy with
      | law hlaw => exact hok.2 hlaw
      | target htarget hstate => exact h.active (hstate.resolve_left (hok.1 htarget))
      | spawned c f n a hf hs himpl ha hphase =>
        obtain ⟨a', ha', hid⟩ := joined_reachable hR c f n hf hs
        rw [ha] at ha'
        cases ha'
        exact h.flown n a ha (hid.trans himpl) (.inr hphase)
  refine ⟨?_, fun d hd hid => hkept (haccepted d hd hid), fun hactive => ?_, fun n a ha hid hp => ?_⟩
  · apply (hW.moves hs).readyFirst hW.sound ?_ h.first
    by_cases hready : Reported R.ports id
    · exact .inl ((reported_iff _ _).mp hready)
    · exact .inr (fun d hd hid => hready (haccepted d hd hid))
  · rcases hW.active hs hactive with hold | rfl
    · exact hkept (h.active hold)
    · exact (step_ready hs).2
  · have hadvanced := Flying.advanced hW hF hs
    cases hold : R.spawner.attempts.get? n with
    | none =>
      have hcheckout := hadvanced.fresh n a ha hold
      rcases hp with hp | hp <;> rw [hcheckout] at hp <;> cases hp
    | some b =>
      obtain ⟨a', ha', hbid, hadvance⟩ := hadvanced.kept n b hold
      rw [ha] at ha'
      cases ha'
      rcases hadvance.readied hp with hb | hb | he
      · exact hkept (h.flown n b hold (hbid.symm.trans hid) (.inl hb))
      · exact hkept (h.flown n b hold (hbid.symm.trans hid) (.inr hb))
      · rw [← hbid, hid] at he
        subst he
        exact (step_ready hs).2

lemma succeeded_housed {ok : PortRouter → Event → Prop} (h : (system manifests).Reachable ok R) :
    ∀ n a, R.spawner.attempts.get? n = some a → Succeeded a.phase →
      R.compartments.has a.id = true := by
  apply h.invariant (P := fun R => ∀ n a, R.spawner.attempts.get? n = some a → Succeeded a.phase →
    R.compartments.has a.id = true)
  · rintro R ⟨journaling, kernel, onDemandSpawn, rfl⟩ n a ha
    cases ha
  · intro R e R' hR hold _ hs n a ha hp
    have hW := Wired.reachable hR
    have hF := Flying.reachable hR
    have hadvanced := Flying.advanced hW hF hs
    apply (Flying.housed hW hF hs).1
    cases hget : R.spawner.attempts.get? n with
    | none =>
      have hcheckout := hadvanced.fresh n a ha hget
      rcases hp with hp | hp <;> rw [hcheckout] at hp <;> cases hp
    | some b =>
      obtain ⟨a', ha', hbid, hadvance⟩ := hadvanced.kept n b hget
      rw [ha] at ha'
      cases ha'
      rw [hbid]
      rcases hadvance.readied hp with hb | hb | rfl
      · exact hold n b hget (.inl hb)
      · exact hold n b hget (.inr hb)
      · exact (@step_ready _ _ manifests _ hs).1

/-- Registered by its checkout, a compartment has been sent nothing yet and is booting. -/
lemma Readied.checkedOut (hR : (system manifests).Reachable System.free R)
    (hs : PortRouter.step manifests R (.checkedOut id) = some R') : Readied id R' := by
  have hW := Wired.reachable hR
  have hF := Flying.reachable hR
  obtain ⟨n, a, A, due, _, ha, rfl, hcheckout, hA, hspawner, hcompartments⟩ := checkedOut_flight hF hs
  have habsent := hF.absent n a ha hcheckout
  have hnone : ∀ d ∈ R.ports.accepted, d.targetId ≠ a.id := by
    intro d hd hid
    have hhoused := hW.housed d hd
    rw [hid, habsent] at hhoused
    cases hhoused
  have hnone' : ∀ d ∈ R'.ports.accepted, d.targetId ≠ a.id := by
    intro d hd
    rcases (CallStep.of_step hs).addressed hd with hold | hwhy
    · exact hnone d hold
    · cases hwhy with
      | law hlaw => cases hlaw
      | target htarget => cases htarget
      | spawned c f m b hf hstage himpl hb hphase =>
        intro hid
        obtain ⟨b', hb', hbid⟩ := joined_reachable hR c f m hf hstage
        rw [hb] at hb'
        cases hb'
        have hhas := succeeded_housed hR m b hb (.inr hphase)
        rw [hbid, himpl, hid, habsent] at hhas
        cases hhas
  refine ⟨?_, fun d hd hid => absurd hid (hnone' d hd), fun hactive => ?_, fun m b hb hid hp => ?_⟩
  · intro l₁ msg l₂ htrace
    have hpost : .posted a.id (.deliver msg) ∈ R'.ports.trace := htrace ▸ by simp
    have hfree : System.free R (Event.checkedOut a.id) := trivial
    obtain ⟨d, hd, hdid, _⟩ := sent_reachable (.next hR hfree hs) a.id msg hpost
    exact absurd hdid (hnone' d hd)
  · rw [stateOf, hcompartments, OrderedMap.get?_set_self] at hactive
    cases hactive
  · rw [hspawner] at hb
    have hget := (hA m).symm.trans hb
    split_ifs at hget with hm
    · cases hget
      rcases hp with hp | hp <;> cases hp
    · have hhas := succeeded_housed hR m b hget hp
      rw [hid, habsent] at hhas
      cases hhas

theorem ready_before_deliver (manifests : OrderedMap String PluginManifest) (R₀ R₁ R : PortRouter)
    (id : String) (h : (system manifests).Reachable System.free R₀)
    (hs : PortRouter.step manifests R₀ (.checkedOut id) = some R₁)
    (hrun : (system manifests).Later (Patient id) R₁ R) : ReadyFirst id R.ports := by
  have hfree : System.free R₀ (Event.checkedOut id) := trivial
  have hR₁ : (system manifests).Reachable System.free R₁ := .next h hfree hs
  have hboth : (system manifests).Reachable System.free R ∧ Readied id R := by
    refine hrun.invariant (P := fun S => (system manifests).Reachable System.free S ∧ Readied id S)
      ⟨hR₁, .checkedOut h hs⟩ ?_
    rintro S e S' ⟨hS, hready⟩ hok hs'
    exact ⟨.next hS trivial hs', hready.step hS hok hs'⟩
  exact hboth.2.first

/-! ### The note store is touched for the first time -/

/-- Two calls touch the dormant note store, and its worker comes up. -/
def comingUp : List Event := [.registerDormant Sample.notes .empty, Sample.get, Sample.get]

theorem ready_before_deliver_joined :
    ∃ R : PortRouter, R.ports.deliveredTo "notes" "c_1" = true ∧
      R.ports.deliveredTo "notes" "c_2" = true ∧ ReadyFirst "notes" R.ports := by
  let M := system (Sample.manifests none none)
  have hbefore : (M.exec System.free Sample.start comingUp).map (fun _ => true) = some true := by
    decide
  have hstep : (M.exec System.free Sample.start (comingUp ++ .checkedOut "notes" :: [])).map
      (fun _ => true) = some true := by decide
  have hend : ((M.exec System.free Sample.start (comingUp ++ [.checkedOut "notes"])).bind
      (fun R₁ => M.exec (Patient "notes") R₁
        [.message "notes" .ready, .settleSpawn "notes", .resume "c_2", .resume "c_1"])).map
      (fun R => R.ports.deliveredTo "notes" "c_1" && R.ports.deliveredTo "notes" "c_2") =
        some true := by decide
  obtain ⟨R₀, R₁, _, hR₀, _, _, hs, hexec, _, _⟩ :=
    System.exec_split (Sample.start_init _) hbefore hstep
  rw [hexec, Option.bind_some] at hend
  obtain ⟨R, hR, hdelivered⟩ := Option.map_eq_some_iff.mp hend
  obtain ⟨hfirst, hsecond⟩ := (Bool.and_eq_true _ _).mp hdelivered
  exact ⟨R, hfirst, hsecond,
    ready_before_deliver _ R₀ R₁ R "notes" hR₀ hs (System.exec_later hR)⟩

/-- A third call comes after the registration and before `ready`. -/
theorem ready_before_deliver_overtaken :
    ¬ ∀ (manifests : OrderedMap String PluginManifest) (R₀ R₁ R : PortRouter) (id : String),
      (system manifests).Reachable System.free R₀ →
      PortRouter.step manifests R₀ (.checkedOut id) = some R₁ →
      (system manifests).Later System.free R₁ R → ReadyFirst id R.ports := by
  intro hclaim
  let M := system (Sample.manifests none none)
  have hbefore : (M.exec System.free Sample.start comingUp).map (fun _ => true) = some true := by
    decide
  have hafter : (M.exec System.free Sample.start
      (comingUp ++ .checkedOut "notes" :: [Sample.get])).map
      (fun R => R.ports.deliveredTo "notes" "c_3" && !decide (Reported R.ports "notes")) =
        some true := by decide
  obtain ⟨R₀, R₁, R, hR₀, _, _, hs, _, hlater, hend⟩ :=
    System.exec_split (Sample.start_init _) hbefore hafter
  obtain ⟨hdelivered, hsilent⟩ := (Bool.and_eq_true _ _).mp hend
  obtain ⟨w, hw, hwhich⟩ := List.any_eq_true.mp hdelivered
  split at hwhich
  · rename_i id' msg
    simp only [Bool.and_eq_true, decide_eq_true_eq] at hwhich
    obtain ⟨rfl, _⟩ := hwhich
    obtain ⟨l₁, l₂, hsplit⟩ := List.append_of_mem hw
    have hready := hclaim _ R₀ R₁ R _ hR₀ hs hlater l₁ msg l₂ hsplit
    have hreported : Reported R.ports "notes" := by
      rw [reported_iff, hsplit]
      exact List.mem_append_right _ (List.mem_cons_of_mem _ hready)
    simp [hreported] at hsilent
  · cases hwhich

end PortRouter

end VivimOmega.Host

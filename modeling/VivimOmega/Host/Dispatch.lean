import VivimOmega.Host.Shape

/-! What a step does to the calls: nothing, open the next one, or take one up again. -/

namespace VivimOmega.Host

open Library Contracts

namespace PortRouter

/-- Nothing happens to the calls, and no delivery is accepted. -/
structure Aside (R R' : PortRouter) : Prop where
  calls : R'.calls = R.calls
  callSeq : R.callSeq ≤ R'.callSeq
  sound : R.ports.Sound → R'.ports.Sound
  grows : Ports.Grows R.ports R'.ports
  attempts : Phased R R'
  replies : ∀ out ∈ R.rootReplies, out ∈ R'.rootReplies
  housed : ∀ id, R.compartments.has id = true → R'.compartments.has id = true

namespace Aside

variable {R S R' : PortRouter}

lemma refl (R : PortRouter) : Aside R R :=
  ⟨rfl, le_rfl, fun h => h, .refl R.ports, fun _ a ha => ⟨a, ha, rfl, rfl⟩,
    fun _ h => h, fun _ h => h⟩

lemma trans (h : Aside R S) (h' : Aside S R') : Aside R R' := by
  refine ⟨h'.calls.trans h.calls, h.callSeq.trans h'.callSeq, fun hs => h'.sound (h.sound hs),
    h.grows.trans h'.grows, ?_,
    fun out hout => h'.replies out (h.replies out hout),
    fun id hid => h'.housed id (h.housed id hid)⟩
  intro n a ha
  obtain ⟨b, hb, hid, hsource⟩ := h'.attempts n a ha
  obtain ⟨b', hb', hid', hsource'⟩ := h.attempts n b hb
  exact ⟨b', hb', hid'.trans hid, hsource'.trans hsource⟩

lemma of_ports {P : Ports} (hs : R.ports.Sound → P.Sound) (h : Ports.Grows R.ports P) :
    Aside R { R with ports := P } :=
  ⟨rfl, le_rfl, hs, h, fun _ a ha => ⟨a, ha, rfl, rfl⟩,
    fun _ h => h, fun _ h => h⟩

lemma post (R : PortRouter) (id : String) (m : ToWorker) : Aside R (R.post id m) :=
  of_ports (fun h => h.post id m) (.post id m _)

lemma receive (R : PortRouter) (id : String) (m : FromWorker) : Aside R (R.receive id m) :=
  of_ports (fun h => h.receive id m) (.receive id m _)

lemma reply (R : PortRouter) (caller : Caller) (out : Outcome) : Aside R (R.reply caller out) := by
  have hreplies : ∀ o ∈ R.rootReplies, o ∈ (R.reply caller out).rootReplies := by
    intro o ho
    cases caller with
    | root => exact List.mem_append_left _ ho
    | compartment id callId =>
      cases out with
      | threw message => exact ho
      | result r =>
        simp only [PortRouter.reply]
        split_ifs <;> exact ho
  rcases reply_shape R caller out with ⟨L, heq⟩ | ⟨id, callId, r, heq⟩
  · rw [heq] at hreplies ⊢
    exact ⟨rfl, le_rfl, fun h => h, .refl _, fun _ a ha => ⟨a, ha, rfl, rfl⟩, hreplies, fun _ h => h⟩
  · rw [heq]
    exact post R id _

lemma setState (R : PortRouter) (id : String) (g : CompartmentHandle → CompartmentHandle) :
    Aside R (R.setState id g) := by
  have hhas := setState_has R id g
  obtain ⟨K, heq, _⟩ := setState_shape R id g
  rw [heq] at hhas ⊢
  exact ⟨rfl, le_rfl, fun h => h, .refl _, fun _ a ha => ⟨a, ha, rfl, rfl⟩, fun _ h => h,
    fun id' hid => (hhas id').trans hid⟩

lemma wakeReady (R : PortRouter) (id : String) (err : Option String) :
    Aside R (R.wakeReady id err) := by
  have hphased := wakeReady_phased R id err
  obtain ⟨A, W, heq⟩ := wakeReady_shape R id err
  rw [heq] at hphased ⊢
  exact ⟨rfl, le_rfl, fun h => h, .refl _, hphased, fun _ h => h, fun _ h => h⟩

lemma waitActive (R : PortRouter) (id : String) (attempt : ℕ) :
    Aside R (R.waitActive id attempt) := by
  have hphased := waitActive_phased R id attempt
  obtain ⟨A, W, heq⟩ := waitActive_shape R id attempt
  rw [heq] at hphased ⊢
  exact ⟨rfl, le_rfl, fun h => h, .refl _, hphased, fun _ h => h, fun _ h => h⟩

lemma setPhase (R : PortRouter) (attempt : ℕ) (phase : SpawnPhase) :
    Aside R (R.setPhase attempt phase) := by
  have hphased := setPhase_phased R attempt phase
  obtain ⟨A, heq⟩ := setPhase_spawner R attempt phase
  rw [heq] at hphased ⊢
  exact ⟨rfl, le_rfl, fun h => h, .refl _, hphased, fun _ h => h, fun _ h => h⟩

lemma failInflight (R : PortRouter) (id reason : String) : Aside R (R.failInflight id reason) :=
  (wakeReady R id (some s!"Error: {reason}")).trans 
    (of_ports (fun h => h.failInflight id reason) (.failInflight id reason _))

lemma hostEffect {op : String} {payload : JsValue} (h : HostEffect R op payload R') :
    Aside R R' := by
  cases h with
  | same => exact refl R
  | journaled J => exact ⟨rfl, le_rfl, fun h => h, .refl _, fun _ a ha => ⟨a, ha, rfl, rfl⟩,
    fun _ h => h, fun _ h => h⟩
  | terminated id reason => exact (failInflight R id reason).trans (setState _ _ _)
  | revoked pluginId J => exact ⟨rfl, le_rfl, fun h => h, .refl _, fun _ a ha => ⟨a, ha, rfl, rfl⟩,
    fun _ h => h, fun _ h => h⟩
  | arbitrated k state => exact ⟨rfl, le_rfl, fun h => h, .refl _, fun _ a ha => ⟨a, ha, rfl, rfl⟩,
    fun _ h => h, fun _ h => h⟩

lemma register (R : PortRouter) (entry : CompositionEntry) (m : PluginManifest)
    (tokens : OrderedMap String String) : Aside R (R.register entry m tokens) := by
  refine ⟨rfl, le_rfl, fun h => h.of_tables rfl rfl rfl rfl rfl rfl, .same rfl rfl rfl,
    fun _ a ha => ⟨a, ha, rfl, rfl⟩, fun _ h => h, ?_⟩
  intro id hid
  simp [PortRouter.register, hid]

end Aside

/-- What a call sees when it is opened is what was there before its message was received. -/
structure SameView (R S : PortRouter) : Prop where
  aside : Aside R S
  callSeq : S.callSeq = R.callSeq
  resolved : S.ports.resolved = R.ports.resolved
  routes : S.routes = R.routes
  spawner : S.spawner = R.spawner
  states : ∀ id, S.stateOf id = R.stateOf id

lemma SameView.opening {R S : PortRouter} (h : SameView R S) :
    Aside R { S with callSeq := R.callSeq + 1 } := by
  have hcount : Aside S { S with callSeq := R.callSeq + 1 } :=
    ⟨rfl, h.callSeq ▸ Nat.le_succ _, fun h => h, .refl _, fun _ a ha => ⟨a, ha, rfl, rfl⟩,
      fun _ h => h, fun _ h => h⟩
  exact h.aside.trans hcount

/-- The principal and the op of a call the event makes that is not refused for its token and is no
host op. -/
def request? (R : PortRouter) : Event → Option (String × String)
  | .callAsRoot op _ _ _ => if Authority.isHostOp op then none else some ("root", op)
  | .message id (.call m) =>
    if (R.authority.checkToken id m.capabilityToken m.op).isSome || Authority.isHostOp m.op then none
    else some (id, m.op)
  | _ => none

/-- The three things a step can do to the calls. -/
inductive CallStep (R : PortRouter) (e : Event) : PortRouter → Prop
  | aside {R' : PortRouter} : Aside R R' → CallStep R e R'
  | opened (S : PortRouter) (caller : Caller) (principal op : String) (payload : JsValue)
    (deadlineMs : ℕ) (onChunk : Bool) (target : Routes.Target) : SameView R S →
    R.request? e = some (principal, op) → R.routes.resolveTarget principal op = some target →
    (∀ id callId, caller = .compartment id callId → R.compartments.has id = true) →
    CallStep R e (({ S with callSeq := R.callSeq + 1 } : PortRouter).runCall
      (causation (R.callSeq + 1)) (R.openFrame caller principal payload deadlineMs onChunk target))
  | resumed (c : CausationId) {R' : PortRouter} : e = .resume c → R.resume c = some R' →
    CallStep R e R'

namespace CallStep

variable {R S R' : PortRouter} {e : Event} {manifests : OrderedMap String PluginManifest}

lemma startCall (h : SameView R S) (caller : Caller) (principal op : String) (payload : JsValue)
    (deadlineMs : ℕ) (onChunk : Bool) (hrequest : R.request? e = some (principal, op))
    (hcaller : ∀ id callId, caller = .compartment id callId → R.compartments.has id = true) :
    CallStep R e (S.startCall caller principal op payload deadlineMs onChunk) := by
  rcases startCall_cases S caller principal op payload deadlineMs onChunk with
    ⟨r, heq⟩ | ⟨target, htarget, heq⟩
  · have hopening := h.opening
    rw [heq, h.callSeq]
    exact .aside (hopening.trans (.reply _ _ _))
  · have hframe : S.openFrame caller principal payload deadlineMs onChunk target =
        R.openFrame caller principal payload deadlineMs onChunk target := by
      rw [openFrame, openFrame, h.routes]
    rw [heq, hframe, h.callSeq]
    rw [h.routes] at htarget
    exact .opened S caller principal op payload deadlineMs onChunk target h hrequest htarget hcaller

lemma of_step (hs : PortRouter.step manifests R e = some R') : CallStep R e R' := by
  cases e with
  | register entry tokens =>
    simp only [PortRouter.step] at hs
    split at hs
    · cases hs
    · split_ifs at hs
      cases hs
      exact .aside ((Aside.register R _ _ _).trans (.post _ _ _))
  | registerDormant entry tokens =>
    obtain ⟨m, _, rfl⟩ := Option.map_eq_some_iff.mp hs
    exact .aside ⟨rfl, le_rfl, fun h => h, .refl _, fun _ a ha => ⟨a, ha, rfl, rfl⟩,
    fun _ h => h, fun _ h => h⟩
  | callAsRoot op payload deadlineMs onChunk =>
    cases hs
    rcases callAsRoot_cases R op payload deadlineMs onChunk with
      ⟨_, R', out, he, heq⟩ | ⟨hhost, heq⟩
    · rw [heq]
      exact .aside ((Aside.hostEffect he).trans (.reply _ _ _))
    · rw [heq]
      exact startCall ⟨.refl R, rfl, rfl, rfl, rfl, fun _ => rfl⟩ _ _ _ _ _ _ (by simp [request?, hhost])
        (fun _ _ hroot => by cases hroot)
  | message id m =>
    simp only [PortRouter.step] at hs
    split_ifs at hs with hid
    cases hs
    have hr := Aside.receive R id m
    cases m with
    | ready => exact .aside ((hr.trans (.setState _ id _)).trans (.wakeReady _ id none))
    | ret c r => exact .aside (hr.trans (.of_ports (fun h => h.onReturn id c r) (.onReturn id c r _)))
    | chunk c chunk => exact .aside (hr.trans (.of_ports (fun h => h.onChunk c chunk) (.onChunk c chunk _)))
    | call m =>
      let S := (R.receive id (.call m)).setState id (fun h => { h with calls := h.calls + 1 })
      have hS : Aside R S := hr.trans (.setState _ _ _)
      have hview : SameView R S := by
        have hstates : ∀ id', S.stateOf id' = R.stateOf id' := by
          intro id'
          rw [setState_stateOf]
          split_ifs with hid'
          · rw [hid']
            rfl
          · rfl
        obtain ⟨K, heq, _⟩ := setState_shape (R.receive id (.call m)) id
          (fun h => { h with calls := h.calls + 1 })
        refine ⟨hS, ?_, ?_, ?_, ?_, hstates⟩ <;> simp only [S, heq] <;> rfl
      have hmsg : (R.receive id (.call m)).onWorkerMessage id (.call m) = S.compartmentCall id m :=
        rfl
      rw [hmsg]
      rcases compartmentCall_cases S id m with
        ⟨r, _, heq⟩ | ⟨htoken, ⟨_, S', out, he, heq⟩ | ⟨hhost, heq⟩⟩
      · rw [heq]
        exact .aside (hS.trans (.reply _ _ _))
      · rw [heq]
        exact .aside ((hS.trans (.hostEffect he)).trans (.reply _ _ _))
      · rw [heq]
        have hauthority : S.authority = R.authority := by
          obtain ⟨K, hK, _⟩ := setState_shape (R.receive id (.call m)) id
            (fun h => { h with calls := h.calls + 1 })
          simp only [S, hK]
          rfl
        rw [hauthority] at htoken
        exact startCall hview _ _ _ _ _ _ (by simp [request?, htoken, hhost]) (fun _ _ hcompartment => by
          cases hcompartment
          exact hid)
  | crash id err =>
    simp only [PortRouter.step] at hs
    split_ifs at hs
    cases hs
    exact .aside ((Aside.setState _ _ _).trans (.failInflight _ _ _))
  | deadline p =>
    simp only [PortRouter.step] at hs
    split at hs
    · cases hs
    · rename_i d hd
      split_ifs at hs
      cases hs
      refine .aside (.of_ports (fun h => ?_) (.onDeadline d _))
      obtain rfl : d.resolve = p := (h.linked.armed p d hd).2.1
      exact h.onDeadline hd
  | readyTimeout id =>
    obtain ⟨w, err, _, _, rfl⟩ := readyTimeout_cases R hs
    exact .aside (.wakeReady _ _ _)
  | checkedOut id =>
    obtain ⟨attempt, a, _, _, _, rfl⟩ := checkedOut_cases R hs
    exact .aside (((Aside.register R _ _ _).trans (.post _ _ _)).trans (.waitActive _ _ _))
  | checkoutFailed id err =>
    obtain ⟨attempt, a, _, _, _, rfl⟩ := checkoutFailed_cases R hs
    exact .aside (.setPhase _ _ _)
  | settleSpawn id =>
    obtain ⟨attempt, a, err, _, _, _, rfl⟩ := settleSpawn_cases R hs
    have hlanded : Aside R (R.landed id err) :=
      ⟨rfl, le_rfl, fun h => h, .refl _, fun _ a ha => ⟨a, ha, rfl, rfl⟩,
    fun _ h => h, fun _ h => h⟩
    exact .aside (hlanded.trans (.setPhase _ _ _))
  | resume c => exact .resumed c rfl hs
  | advance ms =>
    cases hs
    exact .aside (.of_ports (fun h => h.advance ms) (.same rfl rfl rfl))

end CallStep

/-! ### The frame a stretch of `dispatch` leaves behind -/

variable {R R' : PortRouter} {e : Event} {c : CausationId} {f : CallFrame}

lemma close_calls (R : PortRouter) (c : CausationId) (f : CallFrame) (out : Outcome) :
    (R.close c f out).calls = R.calls.set c { f with stage := .closed out } :=
  (Aside.reply (R.setCall c { f with stage := .closed out }) f.caller out).calls

lemma close_grows (R : PortRouter) (c : CausationId) (f : CallFrame) (out : Outcome) :
    Ports.Grows R.ports (R.close c f out).ports :=
  (Aside.reply (R.setCall c { f with stage := .closed out }) f.caller out).grows

lemma accept_accepted (R : PortRouter) (target : String) (msg : DeliverMsg) (onChunk : Bool) :
    (R.accept target msg onChunk).ports.accepted = R.ports.accepted ++
      [R.ports.newDelivery target msg onChunk (R.routes.priorityOf msg.op)] :=
  Ports.accepted_accept _ _ _ _ _

def Stage.PastGate : Stage → Prop
  | .opened => False
  | .gate _ => False
  | _ => True

lemma Executed.calls (h : Executed R c f R') :
    ∃ stage, Stage.PastGate stage ∧ R'.calls = R.calls.set c { f with stage } := by
  cases h with
  | failed code detail => exact ⟨.closed _, trivial, close_calls R c f _⟩
  | joined attempt => exact ⟨.spawn attempt, trivial, rfl⟩
  | spawned d => exact ⟨.spawn _, trivial, rfl⟩
  | targeted hh => exact ⟨.target _, trivial, rfl⟩

/-- A resumed call keeps its frame but for the stage, and is past its gate. -/
lemma resume_calls (h : R.resume c = some R') :
    ∃ f stage, R.calls.get? c = some f ∧ Stage.PastGate stage ∧
      R'.calls = R.calls.set c { f with stage } := by
  obtain ⟨f, hf, hcases⟩ := resume_cases R c h
  refine ⟨f, ?_⟩
  rcases hcases with ⟨p, r, _, _, rfl⟩ | ⟨p, r, _, _, rfl⟩ |
    ⟨attempt, a, err, _, _, _, ⟨_, rfl⟩ | ⟨text, _, rfl⟩⟩
  · obtain ⟨J, ⟨code, detail, report, heq⟩ | ⟨_, message, _, _, heq⟩ | ⟨value, _, _, heq⟩⟩ :=
      afterGate_cases R c f r
    · rw [heq]
      exact ⟨.closed _, hf, trivial, close_calls _ c f _⟩
    · rw [heq]
      exact ⟨.closed _, hf, trivial, close_calls _ c f _⟩
    · obtain ⟨stage, hstage, hcalls⟩ := (execute_executed { R with lawJournal := J } c f).calls
      exact ⟨stage, hf, hstage, heq ▸ hcalls⟩
  · exact ⟨.closed _, hf, trivial, close_calls R c f _⟩
  · obtain ⟨stage, hstage, hcalls⟩ := (handOver_executed R c f).calls
    exact ⟨stage, hf, hstage, hcalls⟩
  · exact ⟨.closed _, hf, trivial, close_calls R c f _⟩

/-- A step that is not aside takes one stretch of `dispatch` on, in a state that differs from the one
before it in what `Aside` allows only. -/
lemma CallStep.progress (h : CallStep R e R') :
    Aside R R' ∨ ∃ B c f, Aside R B ∧ B.spawner = R.spawner ∧ (∀ id, B.stateOf id = R.stateOf id) ∧
      Progress B c f R' := by
  cases h with
  | aside haside => exact .inl haside
  | opened S caller principal op payload deadlineMs onChunk target hview =>
    exact .inr ⟨_, _, _, hview.opening, hview.spawner, hview.states, runCall_progress _ _ _⟩
  | resumed c _ hr =>
    have hjournal : ∀ J, Aside R { R with lawJournal := J } := fun J =>
      ⟨rfl, le_rfl, fun h => h, .refl _, fun _ a ha => ⟨a, ha, rfl, rfl⟩, fun _ h => h, fun _ h => h⟩
    obtain ⟨f, _, hcases⟩ := resume_cases R c hr
    rcases hcases with ⟨p, r, _, _, rfl⟩ | ⟨p, r, _, _, rfl⟩ |
      ⟨attempt, a, err, _, _, _, ⟨_, rfl⟩ | ⟨text, _, rfl⟩⟩
    · obtain ⟨J, hp⟩ := afterGate_progress R c f r
      exact .inr ⟨_, c, f, hjournal J, rfl, fun _ => rfl, hp⟩
    · exact .inr ⟨R, c, f, .refl R, rfl, fun _ => rfl, .closed _⟩
    · exact .inr ⟨R, c, f, .refl R, rfl, fun _ => rfl, .executed (handOver_executed R c f)⟩
    · exact .inr ⟨R, c, f, .refl R, rfl, fun _ => rfl, .closed _⟩

/-- A call is at its gate only once its gate delivery is accepted, by the law of the moment. -/
lemma CallStep.gated (h : CallStep R e R') {p : ℕ} (hnew : R.calls.has c = false)
    (hf : R'.calls.get? c = some f) (hstage : f.stage = .gate p) :
    ∃ d ∈ R'.ports.accepted, d.resolve = p ∧ R.routes.opRoute.get? "law.check@1" = some d.targetId ∧
      d.msg = gateMsg f.principal f.op f.payload c := by
  have hnone : R.calls.get? c = none := (OrderedMap.has_eq_false _ _).mp hnew
  have hpast : ∀ (g : CallFrame) (stage : Stage), Stage.PastGate stage →
      some { g with stage } = some f → False := by
    intro g stage hpast heq
    cases heq
    subst hstage
    exact hpast
  cases h with
  | aside haside =>
    rw [haside.calls, hnone] at hf
    cases hf
  | resumed c' _ hr =>
    obtain ⟨g, stage, hg, hs, hcalls⟩ := resume_calls hr
    rw [hcalls, OrderedMap.get?_set] at hf
    split_ifs at hf with hc
    · exact absurd hf (fun heq => hpast _ _ hs heq)
    · rw [hnone] at hf
      cases hf
  | opened S caller principal op payload deadlineMs onChunk target hview =>
    let T : PortRouter := { S with callSeq := R.callSeq + 1 }
    let g := R.openFrame caller principal payload deadlineMs onChunk target
    have hT : T.calls.get? c = none := by
      rw [← hnone, ← hview.aside.calls]
    rcases runCall_cases T (causation (R.callSeq + 1)) g with
      ⟨_, heq⟩ | ⟨_, code, detail, report, heq⟩ | ⟨_, lawId, hroute, _, heq⟩
    · obtain ⟨stage, hs, hcalls⟩ := (execute_executed T (causation (R.callSeq + 1)) g).calls
      rw [heq, hcalls, OrderedMap.get?_set] at hf
      split_ifs at hf with hc
      · exact absurd hf (fun heq => hpast _ _ hs heq)
      · rw [hT] at hf
        cases hf
    · rw [heq, finish, close_calls, OrderedMap.get?_set] at hf
      split_ifs at hf with hc
      · exact absurd hf (fun heq => hpast _ (.closed _) trivial heq)
      · rw [hT] at hf
        cases hf
    · rw [heq] at hf
      simp only [setCall, OrderedMap.get?_set] at hf
      split_ifs at hf with hc
      · cases hf
        cases hstage
        let msg := gateMsg g.principal g.op g.payload (causation (R.callSeq + 1))
        have hmem : T.ports.newDelivery lawId msg false (T.routes.priorityOf msg.op) ∈
            (T.accept lawId msg false).ports.accepted := by
          rw [accept_accepted]
          exact List.mem_append_right _ List.mem_cons_self
        rw [heq]
        refine ⟨_, hmem, rfl, ?_, ?_⟩
        · rw [← hview.routes]
          exact hroute
        · rw [hc]
          rfl
      · have hkept : T.calls.get? c = some f := hf
        rw [hT] at hkept
        cases hkept

end PortRouter

end VivimOmega.Host

import VivimOmega.Host.Wiring

/-! Everything a step can do, as a sequence of turns: one table operation, one registration, one
change of a handle or of the spawner at a time, with the conditions the code checks before it. -/

namespace VivimOmega.Host

open Library Contracts

namespace PortRouter

/-- The event crashes a compartment, or asks for its termination with the authority to do so. -/
inductive Fells (R : PortRouter) (id : String) : Event → Prop
  | crash (err : String) : Fells R id (.crash id err)
  | root (payload : JsValue) (deadlineMs : ℕ) (onChunk : Bool) :
    payload.prop? "pluginId" = some (.str id) →
    Fells R id (.callAsRoot HostOps.compartmentTerminate payload deadlineMs onChunk)
  | compartment (callerId : String) (m : CallMsg) : m.op = HostOps.compartmentTerminate →
    R.authority.checkToken callerId m.capabilityToken m.op = none →
    m.payload.prop? "pluginId" = some (.str id) → Fells R id (.message callerId (.call m))

/-- One operation on the delivery tables that event `e` can cause in state `R`. -/
inductive Move (R : PortRouter) (e : Event) : Ports → Ports → Prop
  | post (P : Ports) (id : String) (m : ToWorker) : (∀ msg, m ≠ .deliver msg) →
    Move R e P (P.post id m)
  | receive (P : Ports) (id : String) (m : FromWorker) : e = .message id m →
    Move R e P (P.receive id m)
  | enrolled (P : Ports) (id : String) :
    Move R e P { P with delivered := P.delivered.set id 0 }
  | ret (id : String) (c : CausationId) (r : PortResult) : e = .message id (.ret c r) →
    Move R e R.ports ((R.ports.receive id (.ret c r)).onReturn id c r)
  | chunk (id : String) (c : CausationId) (chunk : StreamChunk) :
    e = .message id (.chunk c chunk) →
    Move R e R.ports ((R.ports.receive id (.chunk c chunk)).onChunk c chunk)
  | deadline (d : Delivery) : e = .deadline d.resolve →
    R.ports.timers.get? d.resolve = some d → d.due ≤ R.ports.now →
    Move R e R.ports (R.ports.onDeadline d)
  | fail (P : Ports) (id reason : String) : R.compartments.has id = true → Fells R id e →
    Move R e P (P.failInflight id reason)
  | accept (P : Ports) (target : String) (msg : DeliverMsg) (onChunk : Bool) :
    R.compartments.has target = true → P.keyed msg.causationId = 0 → msg.causationId ≠ "" →
    Move R e P (P.accept (R.routes.maxInflight target) target msg onChunk
      (R.routes.priorityOf msg.op))
  | advance (ms : ℕ) : e = .advance ms → Move R e R.ports (R.ports.advance ms)

/-- One turn of the step that event `e` causes in state `R`. -/
inductive Turn (manifests : OrderedMap String PluginManifest) (R : PortRouter) (e : Event) :
    PortRouter → PortRouter → Prop
  | tables (S : PortRouter) (P : Ports) : Move R e S.ports P → Turn manifests R e S { S with ports := P }
  | noted (S : PortRouter) (L : List Outcome) (J : List (ℕ × List (String × JsValue))) :
    Turn manifests R e S { S with rootReplies := L, lawJournal := J }
  | counted (S : PortRouter) : Turn manifests R e S { S with callSeq := S.callSeq + 1 }
  | framed (S : PortRouter) (c : CausationId) (f : CallFrame) : Turn manifests R e S (S.setCall c f)
  | registered (entry : CompositionEntry) (m : PluginManifest) (tokens : OrderedMap String String) :
    e = .register entry tokens → manifests.get? entry.id = some m →
    R.compartments.has entry.id = false → R.spawner.spawning.has entry.id = false →
    Turn manifests R e R (R.register entry m tokens)
  | dormant (entry : CompositionEntry) (m : PluginManifest) (tokens : OrderedMap String String) :
    e = .registerDormant entry tokens → manifests.get? entry.id = some m →
    Turn manifests R e R (R.registerDormant entry m tokens)
  | arrived (id : String) (attempt : ℕ) (a : SpawnAttempt) : e = .checkedOut id →
    R.spawner.spawning.get? id = some attempt → R.spawner.attempts.get? attempt = some a →
    a.phase = .checkout →
    Turn manifests R e R (R.register a.source.entry a.source.manifest a.source.tokens)
  | waiting (S : PortRouter) (id : String) (attempt : ℕ) : e = .checkedOut id →
    S.spawner = R.spawner → R.spawner.spawning.get? id = some attempt →
    Turn manifests R e S (S.waitActive id attempt)
  | missed (id err : String) (attempt : ℕ) (a : SpawnAttempt) : e = .checkoutFailed id err →
    R.spawner.spawning.get? id = some attempt → R.spawner.attempts.get? attempt = some a →
    a.phase = .checkout → Turn manifests R e R (R.setPhase attempt (.settled (some err)))
  | landed (id : String) (attempt : ℕ) (a : SpawnAttempt) (err : Option String) :
    e = .settleSpawn id → R.spawner.spawning.get? id = some attempt →
    R.spawner.attempts.get? attempt = some a → a.phase = .settled err →
    Turn manifests R e R ((R.landed id err).setPhase attempt (.over err))
  | started (S : PortRouter) (id : String) (d : DormantEntry) : S.compartments.has id = false →
    S.spawner.dormant.get? id = some d → S.spawner.spawning.get? id = none →
    S.spawner.onDemandSpawn = true → Turn manifests R e S (S.startAttempt id d)
  | woken (S : PortRouter) (id : String) (err : Option String) :
    (err = none → e = .message id .ready) → Turn manifests R e S (S.wakeReady id err)
  | readied (S : PortRouter) (id : String) : e = .message id .ready →
    Turn manifests R e S
      (S.setState id (fun h => if h.state = .booting then { h with state := .active } else h))
  | called (S : PortRouter) (id : String) : R.compartments.has id = true →
    Turn manifests R e S (S.setState id (fun h => { h with calls := h.calls + 1 }))
  | crashed (S : PortRouter) (id err : String) : e = .crash id err →
    Turn manifests R e S (S.setState id (fun h =>
      { h with crashes := h.crashes + 1, state := .degraded, lastError := some err }))
  | stopped (S : PortRouter) (id : String) : R.compartments.has id = true → Fells R id e →
    Turn manifests R e S (S.setState id (fun h => { h with state := .stopped }))
  | revoked (S : PortRouter) (pluginId : JsValue) :
    Turn manifests R e S { S with authority := S.authority.revoke pluginId }
  | arbitrated (S : PortRouter) (k : Kernel) (state : StateArbitrator) : S.routes.kernel = some k →
    Turn manifests R e S (S.setKernel { k with state })

abbrev Moves (R : PortRouter) (e : Event) : Ports → Ports → Prop :=
  Relation.ReflTransGen (Move R e)

abbrev Turns (manifests : OrderedMap String PluginManifest) (R : PortRouter) (e : Event) :
    PortRouter → PortRouter → Prop :=
  Relation.ReflTransGen (Turn manifests R e)

namespace Turns

variable {manifests : OrderedMap String PluginManifest} {R S S' R' : PortRouter} {e : Event}
  {c : CausationId} {f : CallFrame}

lemma reply (S : PortRouter) (caller : Caller) (out : Outcome) :
    Turns manifests R e S (S.reply caller out) := by
  rcases reply_shape S caller out with ⟨L, heq⟩ | ⟨id, callId, r, heq⟩
  · rw [heq]
    exact .single (.noted S L S.lawJournal)
  · rw [heq]
    exact .single (.tables S _ (.post _ id _ (fun _ hm => by cases hm)))

lemma close (S : PortRouter) (c : CausationId) (f : CallFrame) (out : Outcome) :
    Turns manifests R e S (S.close c f out) :=
  (Relation.ReflTransGen.single (.framed S c { f with stage := .closed out })).trans (reply _ _ _)

/-- `S` has the routes and the compartments of `R`, so a stretch of `dispatch` from it is made of
turns of `R`. -/
lemma executed (S : PortRouter) (hroutes : S.routes = R.routes)
    (hhas : ∀ id, S.compartments.has id = true → R.compartments.has id = true)
    (hc : c ≠ "") (hfree : S.ports.keyed c = 0) (hp : Executed S c f R') :
    Turns manifests R e S R' := by
  cases hp with
  | failed => exact close S c f _
  | joined attempt => exact .single (.framed S c _)
  | spawned d hno hd hs hspawn =>
    exact (Relation.ReflTransGen.single (.started S f.impl d hno hd hs hspawn)).tail (.framed _ c _)
  | targeted h hget =>
    have hmove : Move R e S.ports _ := .accept S.ports f.impl (targetMsg c f) f.onChunk
      (hhas _ (OrderedMap.has_of_get? hget)) hfree hc
    rw [← hroutes] at hmove
    exact (Relation.ReflTransGen.single (.tables S _ hmove)).tail (.framed _ c _)

lemma progress (S : PortRouter) (hroutes : S.routes = R.routes)
    (hhas : ∀ id, S.compartments.has id = true → R.compartments.has id = true)
    (hc : c ≠ "") (hfree : S.ports.keyed c = 0) (hp : Progress S c f R') :
    Turns manifests R e S R' := by
  cases hp with
  | closed out => exact close S c f out
  | gated lawId hroute hlaw =>
    have hmove : Move R e S.ports _ := .accept S.ports lawId
      (gateMsg f.principal f.op f.payload c) false (hhas _ hlaw) hfree hc
    rw [← hroutes] at hmove
    exact (Relation.ReflTransGen.single (.tables S _ hmove)).tail (.framed _ c _)
  | executed hx => exact executed S hroutes hhas hc hfree hx

lemma failInflight {id : String} (hhas : R.compartments.has id = true) (hfell : Fells R id e)
    (S : PortRouter) (reason : String) : Turns manifests R e S (S.failInflight id reason) :=
  (Relation.ReflTransGen.single
    (.woken S id (some s!"Error: {reason}") (fun hnone => by cases hnone))).tail
    (.tables _ _ (.fail _ id reason hhas hfell))

lemma hostEffect {op : String} {payload : JsValue}
    (hhas : ∀ id, S.compartments.has id = true → R.compartments.has id = true)
    (hfells : ∀ id, op = HostOps.compartmentTerminate → payload.prop? "pluginId" = some (.str id) →
      Fells R id e)
    (he : HostEffect S op payload S') : Turns manifests R e S S' := by
  cases he with
  | same => exact .refl
  | journaled J => exact .single (.noted S S.rootReplies J)
  | terminated id reason hop hp hid =>
    have hfell := hfells id hop hp
    exact (failInflight (hhas id hid) hfell S reason).tail (.stopped _ id (hhas id hid) hfell)
  | revoked pluginId J =>
    exact (Relation.ReflTransGen.single (.revoked S pluginId)).tail (.noted _ S.rootReplies J)
  | arbitrated k state hk => exact .single (.arbitrated S k state hk)

lemma startCall (hW : S.Wired) (hroutes : S.routes = R.routes)
    (hhas : ∀ id, S.compartments.has id = true → R.compartments.has id = true)
    (caller : Caller) (principal op : String) (payload : JsValue) (deadlineMs : ℕ)
    (onChunk : Bool) :
    Turns manifests R e S (S.startCall caller principal op payload deadlineMs onChunk) := by
  have hcount : Turns manifests R e S { S with callSeq := S.callSeq + 1 } := .single (.counted S)
  rcases startCall_cases S caller principal op payload deadlineMs onChunk with
    ⟨r, heq⟩ | ⟨target, _, heq⟩
  · rw [heq]
    exact hcount.trans (reply _ _ _)
  · rw [heq]
    exact hcount.trans (progress _ hroutes hhas (causation_ne_empty _)
      (hW.keyed_unopened hW.unopened_next) (runCall_progress _ _ _))

lemma compartmentCall (hW : S.Wired) (hroutes : S.routes = R.routes)
    (hhas : ∀ id, S.compartments.has id = true → R.compartments.has id = true)
    (hauthority : S.authority = R.authority) (id : String) (m : CallMsg)
    (he : e = .message id (.call m)) : Turns manifests R e S (S.compartmentCall id m) := by
  rcases compartmentCall_cases S id m with
    ⟨r, _, heq⟩ | ⟨htoken, ⟨_, S', out, heffect, heq⟩ | ⟨_, heq⟩⟩
  · rw [heq]
    exact reply S _ _
  · rw [heq]
    rw [hauthority] at htoken
    exact (hostEffect hhas (fun T hop hp => he ▸ .compartment id m hop htoken hp) heffect).trans
      (reply S' _ _)
  · rw [heq]
    exact startCall hW hroutes hhas _ _ _ _ _ _

lemma resume (h : R.Wired) (hr : R.resume c = some R') : Turns manifests R e R R' := by
  obtain ⟨f, hf, hcases⟩ := resume_cases R c hr
  obtain ⟨n, _, hn⟩ := h.minted c (OrderedMap.has_of_get? hf)
  have hc : c ≠ "" := hn ▸ causation_ne_empty _
  rcases hcases with ⟨p, r, hstage, hres, rfl⟩ | ⟨p, r, hstage, hres, rfl⟩ |
    ⟨attempt, a, err, hstage, _, _, hrest⟩
  · have hfree := h.keyed_resumed hf (fun p' hp' => by
      rw [hstage] at hp'
      cases hp'
      exact ⟨r, hres⟩)
    obtain ⟨J, hp⟩ := afterGate_progress R c f r
    exact (Relation.ReflTransGen.single (.noted R R.rootReplies J)).trans
      (progress { R with lawJournal := J } rfl (fun _ hid => hid) hc hfree hp)
  · exact close R c f (.result r)
  · have hfree := h.keyed_resumed hf (fun p' hp' => by
      rw [hstage] at hp'
      cases hp')
    rcases hrest with ⟨_, rfl⟩ | ⟨text, _, rfl⟩
    · exact executed R rfl (fun _ hid => hid) hc hfree (handOver_executed R c f)
    · exact close R c f _

lemma invariant {J : PortRouter → Prop} (h : Turns manifests R e S S')
    (hturn : ∀ T T', Turn manifests R e T T' → J T → J T') (hS : J S) : J S' := by
  induction h with
  | refl => exact hS
  | tail _ hstep ih => exact hturn _ _ hstep ih

end Turns

variable {manifests : OrderedMap String PluginManifest} {R S S' R' : PortRouter} {e : Event}

lemma Wired.turns (h : R.Wired) (hs : PortRouter.step manifests R e = some R') :
    Turns manifests R e R R' := by
  cases e with
  | register entry tokens =>
    simp only [PortRouter.step] at hs
    split at hs
    · cases hs
    · rename_i m hm
      split_ifs at hs with hfree
      cases hs
      simp only [Bool.or_eq_true, not_or, Bool.not_eq_true] at hfree
      exact (Relation.ReflTransGen.single (.registered entry m tokens rfl hm hfree.1 hfree.2)).tail
        (.tables _ _ (.post _ entry.id _ (fun _ hm => by cases hm)))
  | registerDormant entry tokens =>
    obtain ⟨m, hm, rfl⟩ := Option.map_eq_some_iff.mp hs
    exact .single (.dormant entry m tokens rfl hm)
  | callAsRoot op payload deadlineMs onChunk =>
    cases hs
    rcases callAsRoot_cases R op payload deadlineMs onChunk with ⟨_, R', out, he, heq⟩ | ⟨_, heq⟩
    · rw [heq]
      exact (Turns.hostEffect (fun _ hid => hid)
        (fun id hop hp => hop ▸ .root payload deadlineMs onChunk hp) he).trans (Turns.reply R' _ _)
    · rw [heq]
      exact Turns.startCall h rfl (fun _ hid => hid) _ _ _ _ _ _
  | message id m =>
    simp only [PortRouter.step] at hs
    split_ifs at hs with hid
    cases hs
    have hr : Turns manifests R (.message id m) R (R.receive id m) :=
      .single (.tables R _ (.receive _ id m rfl))
    cases m with
    | ready =>
      exact (hr.tail (.readied _ id rfl)).tail (.woken _ id none (fun _ => rfl))
    | ret c r => exact .single (.tables R _ (.ret id c r rfl))
    | chunk c chunk => exact .single (.tables R _ (.chunk id c chunk rfl))
    | call m =>
      let S := (R.receive id (.call m)).setState id (fun h => { h with calls := h.calls + 1 })
      have hW : S.Wired :=
        h.of_aside ((Aside.receive R id (.call m)).trans (.setState _ _ _))
      have hroutes : S.routes = R.routes := by
        obtain ⟨K, heq, _⟩ := setState_shape (R.receive id (.call m)) id
          (fun h => { h with calls := h.calls + 1 })
        simp only [S, heq]
        rfl
      have hhas : ∀ id', S.compartments.has id' = true → R.compartments.has id' = true := by
        intro id' hid'
        rw [setState_has] at hid'
        exact hid'
      have hauthority : S.authority = R.authority := by
        obtain ⟨K, heq, _⟩ := setState_shape (R.receive id (.call m)) id
          (fun h => { h with calls := h.calls + 1 })
        simp only [S, heq]
        rfl
      exact (hr.tail (.called _ id hid)).trans
        (Turns.compartmentCall hW hroutes hhas hauthority id m rfl)
  | crash id err =>
    simp only [PortRouter.step] at hs
    split_ifs at hs with hid
    cases hs
    exact (Relation.ReflTransGen.single (.crashed R id err rfl)).trans
      (Turns.failInflight hid (.crash err) _ _)
  | deadline p =>
    simp only [PortRouter.step] at hs
    split at hs
    · cases hs
    · rename_i d hd
      split_ifs at hs with hdue
      cases hs
      obtain rfl : d.resolve = p := (h.sound.linked.armed p d hd).2.1
      exact .single (.tables R _ (.deadline d rfl hd hdue))
  | readyTimeout id =>
    obtain ⟨w, err, _, _, rfl⟩ := readyTimeout_cases R hs
    exact .single (.woken R id (some err) (fun hnone => by cases hnone))
  | checkedOut id =>
    obtain ⟨attempt, a, hsp, ha, hphase, rfl⟩ := checkedOut_cases R hs
    exact ((Relation.ReflTransGen.single (.arrived id attempt a rfl hsp ha hphase)).tail
      (.tables _ _ (.post _ a.source.entry.id _ (fun _ hm => by cases hm)))).tail
      (.waiting _ id attempt rfl rfl hsp)
  | checkoutFailed id err =>
    obtain ⟨attempt, a, hsp, ha, hphase, rfl⟩ := checkoutFailed_cases R hs
    exact .single (.missed id err attempt a rfl hsp ha hphase)
  | settleSpawn id =>
    obtain ⟨attempt, a, err, hsp, ha, hphase, rfl⟩ := settleSpawn_cases R hs
    exact .single (.landed id attempt a err rfl hsp ha hphase)
  | resume c => exact Turns.resume h hs
  | advance ms =>
    cases hs
    exact .single (.tables R _ (.advance ms rfl))

lemma wakeReady_ports (S : PortRouter) (id : String) (err : Option String) :
    (S.wakeReady id err).ports = S.ports := by
  obtain ⟨A, W, heq⟩ := wakeReady_shape S id err
  rw [heq]

lemma setState_ports (S : PortRouter) (id : String) (g : CompartmentHandle → CompartmentHandle) :
    (S.setState id g).ports = S.ports := by
  obtain ⟨K, heq, _⟩ := setState_shape S id g
  rw [heq]

lemma setState_spawner (S : PortRouter) (id : String)
    (g : CompartmentHandle → CompartmentHandle) : (S.setState id g).spawner = S.spawner := by
  obtain ⟨K, heq, _⟩ := setState_shape S id g
  rw [heq]

lemma setPhase_ports (S : PortRouter) (attempt : ℕ) (phase : SpawnPhase) :
    (S.setPhase attempt phase).ports = S.ports := by
  rw [setPhase_shape]

lemma Turn.moves (h : Turn manifests R e S S') : Moves R e S.ports S'.ports := by
  cases h with
  | tables _ P hm => exact .single hm
  | noted => exact .refl
  | counted => exact .refl
  | framed => exact .refl
  | registered entry => exact .single (.enrolled _ entry.id)
  | dormant => exact .refl
  | arrived id attempt a => exact .single (.enrolled _ a.source.entry.id)
  | waiting _ id attempt =>
    obtain ⟨A, W, heq⟩ := waitActive_shape S id attempt
    rw [heq]
  | missed => rw [setPhase_ports]
  | landed =>
    rw [setPhase_ports]
    exact .refl
  | started => exact .refl
  | woken => rw [wakeReady_ports]
  | readied => rw [setState_ports]
  | called => rw [setState_ports]
  | crashed => rw [setState_ports]
  | stopped => rw [setState_ports]
  | revoked => exact .refl
  | arbitrated => exact .refl

lemma Turns.moves (h : Turns manifests R e S S') : Moves R e S.ports S'.ports := by
  induction h with
  | refl => exact .refl
  | tail _ hturn ih => exact ih.trans hturn.moves

lemma Moves.invariant {I : Ports → Prop} (hmove : ∀ P Q, Move R e P Q → I P → I Q) {P Q : Ports}
    (h : Moves R e P Q) (hP : I P) : I Q := by
  induction h with
  | refl => exact hP
  | tail _ hstep ih => exact hmove _ _ hstep ih

lemma Move.grows {P Q : Ports} (hm : Move R e P Q) :
    Ports.Grows P Q ∨ ∃ target msg onChunk, Q = P.accept (R.routes.maxInflight target) target msg
      onChunk (R.routes.priorityOf msg.op) := by
  cases hm with
  | post _ id m => exact .inl (.post id m _)
  | receive _ id m => exact .inl (.receive id m _)
  | enrolled => exact .inl (.same rfl rfl rfl)
  | advance => exact .inl (.same rfl rfl rfl)
  | ret id c r =>
    have hrec : Ports.Grows R.ports (R.ports.receive id (.ret c r)) := .receive id _ _
    exact .inl (hrec.trans (.onReturn id c r _))
  | chunk id c chunk =>
    have hrec : Ports.Grows R.ports (R.ports.receive id (.chunk c chunk)) := .receive id _ _
    exact .inl (hrec.trans (.onChunk c chunk _))
  | deadline d => exact .inl (.onDeadline d _)
  | fail _ id reason => exact .inl (.failInflight id reason _)
  | accept _ target msg onChunk => exact .inr ⟨target, msg, onChunk, rfl⟩

lemma Move.accepted {P Q : Ports} (hm : Move R e P Q) {d : Delivery} (hd : d ∈ P.accepted) :
    d ∈ Q.accepted := by
  rcases hm.grows with hg | ⟨target, msg, onChunk, rfl⟩
  · rw [hg.accepted]
    exact hd
  · rw [Ports.accepted_accept]
    exact List.mem_append_left _ hd

/-- Only `advance` moves the clock, only a chunk frame hands out a chunk. -/
lemma Move.still {P Q : Ports} (hm : Move R e P Q) :
    Ports.Still P Q ∨
      (∃ id c chunk, e = .message id (.chunk c chunk) ∧ P = R.ports ∧
        Q = (R.ports.receive id (.chunk c chunk)).onChunk c chunk) ∨
      ∃ ms, e = .advance ms ∧ P = R.ports ∧ Q = R.ports.advance ms := by
  cases hm with
  | post => exact .inl ⟨rfl, rfl⟩
  | receive => exact .inl ⟨rfl, rfl⟩
  | enrolled => exact .inl ⟨rfl, rfl⟩
  | advance ms he => exact .inr (.inr ⟨ms, he, rfl, rfl⟩)
  | ret id c r =>
    have hstill := Ports.Still.onReturn id c r (R.ports.receive id (.ret c r))
    exact .inl ⟨hstill.now, hstill.chunks⟩
  | chunk id c chunk he => exact .inr (.inl ⟨id, c, chunk, he, rfl, rfl⟩)
  | deadline d => exact .inl (.onDeadline d _)
  | fail _ id reason => exact .inl (.failInflight id reason _)
  | accept _ target msg onChunk => exact .inl (.accept _ _ _ _ _ _)

lemma Wired.moves (h : R.Wired) (hs : PortRouter.step manifests R e = some R') :
    Moves R e R.ports R'.ports := (h.turns hs).moves

/-! ### What a turn does to the manifests and to the tokens -/

/-- The registrations event `e` can cause in state `R`: its own, or that of a checked-out worker. -/
inductive Registers (R : PortRouter) (e : Event) : CompositionEntry → OrderedMap String String → Prop
  | eager (entry : CompositionEntry) (tokens : OrderedMap String String) :
    e = .register entry tokens → Registers R e entry tokens
  | dormant (entry : CompositionEntry) (tokens : OrderedMap String String) :
    e = .registerDormant entry tokens → Registers R e entry tokens
  | lazily (n : ℕ) (a : SpawnAttempt) : R.spawner.attempts.get? n = some a →
    Registers R e a.source.entry a.source.tokens

/-- A turn that registers comes first in its step and leaves the deliveries alone. -/
structure Enrols (R : PortRouter) (e : Event) (S S' : PortRouter) (entry : CompositionEntry)
    (m : PluginManifest) (tokens : OrderedMap String String) : Prop where
  source : Registers R e entry tokens
  first : S = R
  routes : S'.routes = S.routes.enrol entry m
  authority : S'.authority = S.authority.installTokens entry.id tokens
  accepted : S'.ports.accepted = S.ports.accepted

lemma Turn.registry (ht : Turn manifests R e S S') :
    (S'.routes.manifests = S.routes.manifests ∧ S'.routes.opRisk = S.routes.opRisk ∧
        (S'.authority = S.authority ∨ ∃ pluginId, S'.authority = S.authority.revoke pluginId)) ∨
      ∃ entry m tokens, Enrols R e S S' entry m tokens := by
  cases ht with
  | registered entry m tokens he =>
    exact .inr ⟨entry, m, tokens, .eager entry tokens he, rfl, rfl, rfl, rfl⟩
  | dormant entry m tokens he =>
    exact .inr ⟨entry, m, tokens, .dormant entry tokens he, rfl, rfl, rfl, rfl⟩
  | arrived id attempt a he hsp ha =>
    exact .inr ⟨_, a.source.manifest, _, .lazily attempt a ha, rfl, rfl, rfl, rfl⟩
  | revoked _ pluginId => exact .inl ⟨rfl, rfl, .inr ⟨pluginId, rfl⟩⟩
  | waiting _ id attempt =>
    obtain ⟨A, W, heq⟩ := waitActive_shape S id attempt
    rw [heq]
    exact .inl ⟨rfl, rfl, .inl rfl⟩
  | woken _ id err =>
    obtain ⟨A, W, heq⟩ := wakeReady_shape S id err
    rw [heq]
    exact .inl ⟨rfl, rfl, .inl rfl⟩
  | missed =>
    rw [setPhase_shape]
    exact .inl ⟨rfl, rfl, .inl rfl⟩
  | landed =>
    rw [setPhase_shape]
    exact .inl ⟨rfl, rfl, .inl rfl⟩
  | readied _ id =>
    obtain ⟨K, heq, _⟩ := setState_shape S id
      (fun h => if h.state = .booting then { h with state := .active } else h)
    rw [heq]
    exact .inl ⟨rfl, rfl, .inl rfl⟩
  | called _ id =>
    obtain ⟨K, heq, _⟩ := setState_shape S id (fun h => { h with calls := h.calls + 1 })
    rw [heq]
    exact .inl ⟨rfl, rfl, .inl rfl⟩
  | crashed _ id err =>
    obtain ⟨K, heq, _⟩ := setState_shape S id (fun h =>
      { h with crashes := h.crashes + 1, state := .degraded, lastError := some err })
    rw [heq]
    exact .inl ⟨rfl, rfl, .inl rfl⟩
  | stopped _ id =>
    obtain ⟨K, heq, _⟩ := setState_shape S id (fun h => { h with state := .stopped })
    rw [heq]
    exact .inl ⟨rfl, rfl, .inl rfl⟩
  | tables => exact .inl ⟨rfl, rfl, .inl rfl⟩
  | noted => exact .inl ⟨rfl, rfl, .inl rfl⟩
  | counted => exact .inl ⟨rfl, rfl, .inl rfl⟩
  | framed => exact .inl ⟨rfl, rfl, .inl rfl⟩
  | started => exact .inl ⟨rfl, rfl, .inl rfl⟩
  | arbitrated => exact .inl ⟨rfl, rfl, .inl rfl⟩

/-! ### Where dormant entries and spawn attempts come from -/

lemma Turn.dormant_source (ht : Turn manifests R e S S') {id : String} {d : DormantEntry}
    (hd : S'.spawner.dormant.get? id = some d) :
    S.spawner.dormant.get? id = some d ∨
      ∃ m, e = .registerDormant d.entry d.tokens ∧ manifests.get? id = some m ∧ d.entry.id = id ∧
        d.manifest = m := by
  cases ht with
  | dormant entry m tokens he hm =>
    simp only [PortRouter.registerDormant, OrderedMap.get?_set] at hd
    split_ifs at hd with hid
    · cases hd
      subst hid
      exact .inr ⟨m, he, hm, rfl, rfl⟩
    · exact .inl hd
  | landed id' attempt a err =>
    rw [setPhase_shape] at hd
    simp only [PortRouter.landed] at hd
    split_ifs at hd
    · rw [OrderedMap.get?_delete] at hd
      split_ifs at hd
      exact .inl hd
    · exact .inl hd
  | waiting _ id attempt =>
    obtain ⟨A, W, heq⟩ := waitActive_shape S id attempt
    exact .inl (by rwa [heq] at hd)
  | woken _ id err =>
    obtain ⟨A, W, heq⟩ := wakeReady_shape S id err
    exact .inl (by rwa [heq] at hd)
  | missed => exact .inl (by rwa [setPhase_shape] at hd)
  | readied _ id => exact .inl (by rwa [setState_spawner] at hd)
  | called _ id => exact .inl (by rwa [setState_spawner] at hd)
  | crashed _ id err => exact .inl (by rwa [setState_spawner] at hd)
  | stopped _ id => exact .inl (by rwa [setState_spawner] at hd)
  | tables => exact .inl hd
  | noted => exact .inl hd
  | counted => exact .inl hd
  | framed => exact .inl hd
  | registered => exact .inl hd
  | arrived => exact .inl hd
  | started => exact .inl hd
  | revoked => exact .inl hd
  | arbitrated => exact .inl hd

lemma Turn.attempt_source (ht : Turn manifests R e S S') {n : ℕ} {a : SpawnAttempt}
    (ha : S'.spawner.attempts.get? n = some a) :
    (∃ a', S.spawner.attempts.get? n = some a' ∧ a'.id = a.id ∧ a'.source = a.source) ∨
      S.spawner.dormant.get? a.id = some a.source := by
  cases ht with
  | started _ id d _ hd =>
    simp only [PortRouter.startAttempt, OrderedMap.get?_set] at ha
    split_ifs at ha
    · cases ha
      exact .inr hd
    · exact .inl ⟨a, ha, rfl, rfl⟩
  | waiting _ id attempt => exact .inl (waitActive_phased S id attempt n a ha)
  | woken _ id err => exact .inl (wakeReady_phased S id err n a ha)
  | missed id err attempt => exact .inl (setPhase_phased R attempt (.settled (some err)) n a ha)
  | landed id attempt a' err =>
    exact .inl (setPhase_phased (R.landed id err) attempt (.over err) n a ha)
  | readied _ id => exact .inl ⟨a, by rwa [setState_spawner] at ha, rfl, rfl⟩
  | called _ id => exact .inl ⟨a, by rwa [setState_spawner] at ha, rfl, rfl⟩
  | crashed _ id err => exact .inl ⟨a, by rwa [setState_spawner] at ha, rfl, rfl⟩
  | stopped _ id => exact .inl ⟨a, by rwa [setState_spawner] at ha, rfl, rfl⟩
  | tables => exact .inl ⟨a, ha, rfl, rfl⟩
  | noted => exact .inl ⟨a, ha, rfl, rfl⟩
  | counted => exact .inl ⟨a, ha, rfl, rfl⟩
  | framed => exact .inl ⟨a, ha, rfl, rfl⟩
  | registered => exact .inl ⟨a, ha, rfl, rfl⟩
  | dormant => exact .inl ⟨a, ha, rfl, rfl⟩
  | arrived => exact .inl ⟨a, ha, rfl, rfl⟩
  | revoked => exact .inl ⟨a, ha, rfl, rfl⟩
  | arbitrated => exact .inl ⟨a, ha, rfl, rfl⟩

/-! ### Registration keeps to the verified manifests -/

/-- Every registered manifest, dormant entry and spawn attempt stems from the verified
composition. -/
structure Verified (manifests : OrderedMap String PluginManifest) (R : PortRouter) : Prop where
  manifest : ∀ id m, R.routes.manifests.get? id = some m → manifests.get? id = some m
  listed : ∀ id, R.compartments.has id = true → R.routes.manifests.has id = true
  dormant : ∀ id d, R.spawner.dormant.get? id = some d →
    d.entry.id = id ∧ manifests.get? id = some d.manifest
  attempts : ∀ n a, R.spawner.attempts.get? n = some a →
    a.source.entry.id = a.id ∧ manifests.get? a.id = some a.source.manifest

namespace Verified

lemma enrol (h : S.Verified manifests) {entry : CompositionEntry} {m : PluginManifest}
    (hm : manifests.get? entry.id = some m) :
    ∀ id m', (S.routes.enrol entry m).manifests.get? id = some m' → manifests.get? id = some m' := by
  intro id m' hget
  rw [Routes.enrol_manifests, OrderedMap.get?_set] at hget
  split_ifs at hget with hid
  · cases hget
    rw [hid, hm]
  · exact h.manifest id m' hget

lemma enrol_listed (h : S.Verified manifests) (entry : CompositionEntry) (m : PluginManifest)
    {id : String} (hid : id = entry.id ∨ S.compartments.has id = true) :
    (S.routes.enrol entry m).manifests.has id = true := by
  rw [Routes.enrol_manifests, OrderedMap.has_set, Bool.or_eq_true, decide_eq_true_eq]
  exact hid.imp_right (h.listed id)

lemma restated (h : S.Verified manifests) (id : String)
    (g : CompartmentHandle → CompartmentHandle)
    (hd : ∀ id' d, (S.setState id g).spawner.dormant.get? id' = some d →
      d.entry.id = id' ∧ manifests.get? id' = some d.manifest)
    (ha : ∀ n a, (S.setState id g).spawner.attempts.get? n = some a →
      a.source.entry.id = a.id ∧ manifests.get? a.id = some a.source.manifest) :
    (S.setState id g).Verified manifests := by
  have hhas := setState_has S id g
  obtain ⟨K, heq, _⟩ := setState_shape S id g
  rw [heq] at hd ha hhas ⊢
  exact ⟨h.manifest, fun id' hid => h.listed id' (hhas id' ▸ hid), hd, ha⟩

lemma turn (h : S.Verified manifests) (ht : Turn manifests R e S S') : S'.Verified manifests := by
  have hd : ∀ id d, S'.spawner.dormant.get? id = some d →
      d.entry.id = id ∧ manifests.get? id = some d.manifest := by
    intro id d hget
    rcases ht.dormant_source hget with hold | ⟨m, _, hm, hid, hmanifest⟩
    · exact h.dormant id d hold
    · exact ⟨hid, hmanifest ▸ hm⟩
  have ha : ∀ n a, S'.spawner.attempts.get? n = some a →
      a.source.entry.id = a.id ∧ manifests.get? a.id = some a.source.manifest := by
    intro n a hget
    rcases ht.attempt_source hget with ⟨a', hold, hid, hsource⟩ | hdormant
    · rw [← hid, ← hsource]
      exact h.attempts n a' hold
    · exact h.dormant a.id a.source hdormant
  cases ht with
  | registered entry m tokens _ hm =>
    refine ⟨h.enrol hm, fun id hid => h.enrol_listed entry m ?_, hd, ha⟩
    simpa [PortRouter.register] using hid
  | dormant entry m tokens _ hm =>
    exact ⟨h.enrol hm, fun id hid => h.enrol_listed entry m (.inr hid), hd, ha⟩
  | arrived id attempt a _ _ hget =>
    obtain ⟨hid, hm⟩ := h.attempts attempt a hget
    refine ⟨h.enrol (hid.symm ▸ hm), fun id hid => h.enrol_listed a.source.entry _ ?_, hd, ha⟩
    simpa [PortRouter.register] using hid
  | waiting _ id attempt =>
    obtain ⟨A, W, heq⟩ := waitActive_shape S id attempt
    rw [heq] at hd ha ⊢
    exact ⟨h.manifest, h.listed, hd, ha⟩
  | woken _ id err =>
    obtain ⟨A, W, heq⟩ := wakeReady_shape S id err
    rw [heq] at hd ha ⊢
    exact ⟨h.manifest, h.listed, hd, ha⟩
  | missed =>
    rw [setPhase_shape] at hd ha ⊢
    exact ⟨h.manifest, h.listed, hd, ha⟩
  | landed =>
    rw [setPhase_shape] at hd ha ⊢
    exact ⟨h.manifest, h.listed, hd, ha⟩
  | readied _ id => exact h.restated id _ hd ha
  | called _ id => exact h.restated id _ hd ha
  | crashed _ id err => exact h.restated id _ hd ha
  | stopped _ id => exact h.restated id _ hd ha
  | tables => exact ⟨h.manifest, h.listed, hd, ha⟩
  | noted => exact ⟨h.manifest, h.listed, hd, ha⟩
  | counted => exact ⟨h.manifest, h.listed, hd, ha⟩
  | framed => exact ⟨h.manifest, h.listed, hd, ha⟩
  | started => exact ⟨h.manifest, h.listed, hd, ha⟩
  | revoked => exact ⟨h.manifest, h.listed, hd, ha⟩
  | arbitrated => exact ⟨h.manifest, h.listed, hd, ha⟩

lemma step (hW : R.Wired) (h : R.Verified manifests)
    (hs : PortRouter.step manifests R e = some R') : R'.Verified manifests :=
  (hW.turns hs).invariant (fun _ _ ht hT => hT.turn ht) h

lemma reachable {ok : PortRouter → Event → Prop} (h : (system manifests).Reachable ok R) :
    R.Verified manifests := by
  apply h.invariant
  · rintro R ⟨journaling, kernel, onDemandSpawn, rfl⟩
    refine ⟨?_, ?_, ?_, ?_⟩ <;> simp [PortRouter.fresh, OrderedMap.has]
  · intro R e R' hR h _ hs
    exact h.step (Wired.reachable hR) hs

end Verified

end PortRouter

end VivimOmega.Host

import VivimOmega.Host.Posts

/-! The gate: a call with a declared risk reaches its target only past an `allow` of the law, as
long as the ok results that settle gate deliveries carry one of the three decisions. -/

namespace VivimOmega.Host

open Library Contracts

namespace PortRouter

variable {R R' B B' : PortRouter} {manifests : OrderedMap String PluginManifest} {e : Event}
  {c : CausationId} {f g : CallFrame} {Law : CausationId → String → Prop}

/-! ### The answers of the law -/

def DecisionIs (value : JsValue) (decision : String) : Prop :=
  (value.prop? "decision").bind JsValue.string? = some decision

instance (value : JsValue) (decision : String) : Decidable (DecisionIs value decision) :=
  inferInstanceAs (Decidable (_ = _))

/-- One of the two decisions that refuse a call. -/
def Refuses (value : JsValue) : Prop :=
  DecisionIs value "deny" ∨ DecisionIs value "require-consent"

instance (value : JsValue) : Decidable (Refuses value) := inferInstanceAs (Decidable (_ ∨ _))

def gatePromise (R : PortRouter) (c : CausationId) : Option ℕ :=
  match (R.calls.get? c).map CallFrame.stage with
  | some (.gate p) => some p
  | _ => none

/-- The call `c` is at its gate, and `d` is the gate delivery it awaits, in flight. -/
def AtGate (R : PortRouter) (c : CausationId) (d : Delivery) : Prop :=
  R.gatePromise c = some d.resolve ∧ R.ports.pending.has c = true

instance (R : PortRouter) (c : CausationId) (d : Delivery) : Decidable (R.AtGate c d) :=
  inferInstanceAs (Decidable (_ ∧ _))

/-- An ok result that settles a gate delivery refuses the call, or it says `allow` and comes from
the compartment the delivery went to. -/
def Decides (R : PortRouter) : Event → Prop
  | .message id (.ret c (.ok value)) => ∀ d ∈ R.ports.accepted, R.AtGate c d →
    Refuses value ∨ (DecisionIs value "allow" ∧ d.targetId = id)
  | _ => True

instance (R : PortRouter) (e : Event) : Decidable (R.Decides e) := by
  unfold Decides
  split
  · exact List.decidableBAll _ _
  · exact inferInstanceAs (Decidable True)

/-- What is new among the results is an error, or what the return frame `e` carries. -/
def Arrived (R : PortRouter) (e : Event) (P : Ports) (i : ℕ) (r : PortResult) : Prop :=
  (i, r) ∈ R.ports.resolved ∨ (∃ code detail report, r = .error code detail report) ∨
    ∃ id c p, e = .message id (.ret c r) ∧ R.ports.pending.get? c = some p ∧ p.resolve = i ∧
      .received id (.ret c r) ∈ P.trace

lemma Move.arrived {P Q : Ports} (hm : Move R e P Q) (hP : P.Sound)
    (hold : ∀ i r, (i, r) ∈ P.resolved → Arrived R e P i r) {i : ℕ} {r : PortResult}
    (hi : (i, r) ∈ Q.resolved) : Arrived R e Q i r := by
  have hkept : (i, r) ∈ P.resolved → Arrived R e Q i r := by
    intro hmem
    rcases hold i r hmem with h | h | ⟨id, c, p, he, hp, hr, htrace⟩
    · exact .inl h
    · exact .inr (.inl h)
    · exact .inr (.inr ⟨id, c, p, he, hp, hr, hm.trace htrace⟩)
  cases hm with
  | post => exact hkept hi
  | receive => exact hkept hi
  | enrolled => exact hkept hi
  | advance => exact hkept hi
  | ret id c r' he =>
    unfold Ports.onReturn at hi hkept ⊢
    cases hp : (R.ports.receive id (.ret c r')).pending.get? c with
    | none =>
      rw [hp] at hi
      exact .inl hi
    | some p =>
      have hreceived : .received id (.ret c r') ∈
          ((R.ports.receive id (.ret c r')).onReturn id c r').trace :=
        (Ports.Grows.onReturn id c r' _).trace _ List.mem_cons_self
      rw [Ports.onReturn, hp] at hreceived
      rw [hp] at hi
      rcases Ports.answer_resolved (hP.receive id (.ret c r')).linked hp hi with h | h | ⟨d, _, _, h⟩
      · exact .inl h
      · cases h
        exact .inr (.inr ⟨id, c, p, he, hp, rfl, hreceived⟩)
      · cases h
        exact .inr (.inl ⟨_, _, _, rfl⟩)
  | chunk id c chunk =>
    unfold Ports.onChunk at hi
    split at hi
    · exact hkept hi
    · split_ifs at hi <;> exact .inl hi
  | deadline d _ hd =>
    obtain ⟨p, hp, _, heq⟩ := hP.onDeadline_eq hd
    rw [heq] at hi
    rcases Ports.answer_resolved hP.linked hp hi with h | h | ⟨d', _, _, h⟩
    · exact hkept h
    · cases h
      exact .inr (.inl ⟨_, _, _, rfl⟩)
    · cases h
      exact .inr (.inl ⟨_, _, _, rfl⟩)
  | fail _ id reason =>
    rcases Ports.failInflight_error hi with h | rfl
    · exact hkept h
    · exact .inr (.inl ⟨_, _, _, rfl⟩)
  | accept =>
    rw [Ports.accept_resolved] at hi
    exact hkept hi

lemma Wired.arrived (hW : R.Wired) (hs : PortRouter.step manifests R e = some R') {i : ℕ}
    {r : PortResult} (hi : (i, r) ∈ R'.ports.resolved) : Arrived R e R'.ports i r := by
  have hboth := (hW.moves hs).invariant
    (I := fun P => P.Sound ∧ ∀ i r, (i, r) ∈ P.resolved → Arrived R e P i r)
    (fun P Q hm hP => ⟨hm.sound hP.1, fun _ _ hi => hm.arrived hP.1 hP.2 hi⟩)
    ⟨hW.sound, fun _ _ hi => .inl hi⟩
  exact hboth.2 i r hi

/-! ### What holds of every call -/

/-- The law the call was sent to answered it with `allow`. -/
def Allowed (Law : CausationId → String → Prop) (R : PortRouter) (c : CausationId)
    (f : CallFrame) : Prop :=
  ∃ d ∈ R.ports.accepted, ∃ value, Law c d.targetId ∧
    d.msg = gateMsg f.principal f.op f.payload c ∧ DecisionIs value "allow" ∧
    .received d.targetId (.ret c (.ok value)) ∈ R.ports.trace

def Cleared (Law : CausationId → String → Prop) (R : PortRouter) (c : CausationId)
    (f : CallFrame) : Prop := f.risk = none ∨ Allowed Law R c f

/-- The caller got what its call ended with. -/
def Answered (R : PortRouter) (caller : Caller) (out : Outcome) : Prop :=
  match caller with
  | .root => out ∈ R.rootReplies
  | .compartment id callId => ∀ r, out = .result r → .posted id (.result callId r) ∈ R.ports.trace

/-- An ok answer to a gate delivery refuses the call, or allows it in the name of its target. -/
def Attested (R : PortRouter) (d : Delivery) (r : PortResult) : Prop :=
  ∀ value, r = .ok value → Refuses value ∨
    (DecisionIs value "allow" ∧ .received d.targetId (.ret d.key r) ∈ R.ports.trace)

def IsError (out : Outcome) : Prop := ∃ code detail report, out = .result (.error code detail report)

def StageOk (Law : CausationId → String → Prop) (R : PortRouter) (c : CausationId)
    (f : CallFrame) : Stage → Prop
  | .opened => False
  | .gate p => ∃ d ∈ R.ports.accepted, d.resolve = p ∧ Law c d.targetId ∧
    d.msg = gateMsg f.principal f.op f.payload c ∧ ∀ r, (p, r) ∈ R.ports.resolved → Attested R d r
  | .spawn _ => Cleared Law R c f
  | .target _ => Cleared Law R c f
  | .closed out => Answered R f.caller out ∧ (Cleared Law R c f ∨ IsError out)

structure Gated (Law : CausationId → String → Prop) (R : PortRouter) : Prop where
  housed : ∀ c f id callId, R.calls.get? c = some f → f.caller = .compartment id callId →
    R.compartments.has id = true
  staged : ∀ c f, R.calls.get? c = some f → StageOk Law R c f f.stage
  delivered : ∀ d ∈ R.ports.accepted, ∃ f, R.calls.get? d.key = some f ∧
    ((d.msg = gateMsg f.principal f.op f.payload d.key ∧ Law d.key d.targetId) ∨
      (d.msg = targetMsg d.key f ∧ d.targetId = f.impl ∧ Cleared Law R d.key f))
  spawned : ∀ n a, R.spawner.attempts.get? n = some a →
    ∃ c f, R.calls.get? c = some f ∧ f.impl = a.id ∧ Cleared Law R c f

/-! ### What was found out stays known -/

structure Onward (R R' : PortRouter) : Prop where
  accepted : ∀ d ∈ R.ports.accepted, d ∈ R'.ports.accepted
  trace : ∀ w ∈ R.ports.trace, w ∈ R'.ports.trace
  replies : ∀ out ∈ R.rootReplies, out ∈ R'.rootReplies
  housed : ∀ id, R.compartments.has id = true → R'.compartments.has id = true

lemma Aside.onward (h : Aside R R') : Onward R R' :=
  ⟨fun _ hd => h.grows.accepted.symm ▸ hd, h.grows.trace, h.replies, h.housed⟩

lemma Cleared.onward (h : Cleared Law R c f) (ho : Onward R R') : Cleared Law R' c f := by
  rcases h with hrisk | ⟨d, hd, value, hlaw, hmsg, hallow, hreceived⟩
  · exact .inl hrisk
  · exact .inr ⟨d, ho.accepted d hd, value, hlaw, hmsg, hallow, ho.trace _ hreceived⟩

lemma Answered.onward {caller : Caller} {out : Outcome} (h : Answered R caller out)
    (ho : Onward R R') : Answered R' caller out := by
  cases caller with
  | root => exact ho.replies out h
  | compartment id callId => exact fun r hr => ho.trace _ (h r hr)

lemma Attested.onward {d : Delivery} {r : PortResult} (h : Attested R d r) (ho : Onward R R') :
    Attested R' d r :=
  fun value hv => (h value hv).imp_right (fun ⟨hallow, hreceived⟩ => ⟨hallow, ho.trace _ hreceived⟩)

/-- The answers to the gate deliveries of `R` that are new in `R'` are attested. -/
def NewlyAttested (R R' : PortRouter) : Prop :=
  ∀ c f p d r, R.calls.get? c = some f → f.stage = .gate p → d ∈ R.ports.accepted → d.resolve = p →
    d.msg = gateMsg f.principal f.op f.payload c → (p, r) ∈ R'.ports.resolved →
    (p, r) ∈ R.ports.resolved ∨ Attested R' d r

lemma NewlyAttested.of_resolved (h : R'.ports.resolved = R.ports.resolved) : NewlyAttested R R' :=
  fun _ _ _ _ _ _ _ _ _ _ hres => .inl (h ▸ hres)

lemma StageOk.onward (h : StageOk Law R c f f.stage) (hf : R.calls.get? c = some f)
    (ho : Onward R R') (hnew : NewlyAttested R R') : StageOk Law R' c f f.stage := by
  cases hs : f.stage with
  | opened =>
    rw [hs] at h
    exact h
  | gate p =>
    rw [hs] at h
    obtain ⟨d, hd, hp, hlaw, hmsg, hold⟩ := h
    refine ⟨d, ho.accepted d hd, hp, hlaw, hmsg, fun r hr => ?_⟩
    rcases hnew c f p d r hf hs hd hp hmsg hr with hr | hr
    · exact (hold r hr).onward ho
    · exact hr
  | spawn attempt =>
    rw [hs] at h
    exact Cleared.onward h ho
  | target p =>
    rw [hs] at h
    exact Cleared.onward h ho
  | closed out =>
    rw [hs] at h
    exact ⟨h.1.onward ho, h.2.imp_left (fun hc => hc.onward ho)⟩

lemma Gated.aside (h : Gated Law R) (ha : Aside R R') (hnew : NewlyAttested R R') : Gated Law R' := by
  refine ⟨?_, ?_, ?_, ?_⟩
  · intro c f id callId hf hcaller
    rw [ha.calls] at hf
    exact ha.housed id (h.housed c f id callId hf hcaller)
  · intro c f hf
    rw [ha.calls] at hf
    exact (h.staged c f hf).onward hf ha.onward hnew
  · intro d hd
    rw [ha.grows.accepted] at hd
    obtain ⟨f, hf, hmsg⟩ := h.delivered d hd
    exact ⟨f, ha.calls.symm ▸ hf,
      hmsg.imp_right (And.imp_right (And.imp_right fun hc => hc.onward ha.onward))⟩
  · intro n a hget
    obtain ⟨a', ha', hid, _⟩ := ha.attempts n a hget
    obtain ⟨c, f, hf, himpl, hc⟩ := h.spawned n a' ha'
    exact ⟨c, f, ha.calls.symm ▸ hf, himpl.trans hid, hc.onward ha.onward⟩

/-! ### One call moves on -/

/-- `f` is the frame of the call `c`, if that was opened at all, but for the stage. -/
def Known (R : PortRouter) (c : CausationId) (f : CallFrame) : Prop :=
  ∀ g, R.calls.get? c = some g → ∃ stage, g = { f with stage }

/-- The call `c` gets the frame `g`; whatever is new belongs to it. -/
structure Reframed (Law : CausationId → String → Prop) (B B' : PortRouter) (c : CausationId)
    (g : CallFrame) : Prop where
  onward : Onward B B'
  calls : B'.calls = B.calls.set c g
  resolved : B'.ports.resolved = B.ports.resolved
  accepted : ∀ d ∈ B'.ports.accepted, d ∈ B.ports.accepted ∨ (d.key = c ∧
    ((d.msg = gateMsg g.principal g.op g.payload c ∧ Law c d.targetId) ∨
      (d.msg = targetMsg c g ∧ d.targetId = g.impl ∧ Cleared Law B' c g)))
  attempts : ∀ n a, B'.spawner.attempts.get? n = some a →
    (∃ a', B.spawner.attempts.get? n = some a' ∧ a'.id = a.id) ∨
      (g.impl = a.id ∧ Cleared Law B' c g)
  housed : ∀ id callId, g.caller = .compartment id callId → B'.compartments.has id = true
  staged : StageOk Law B' c g g.stage

lemma Gated.reframed (h : Gated Law B) (hk : Known B c g) (hr : Reframed Law B B' c g) :
    Gated Law B' := by
  have hself : B'.calls.get? c = some g := by rw [hr.calls, OrderedMap.get?_set_self]
  have hnew : NewlyAttested B B' := .of_resolved hr.resolved
  -- an old frame is still there, or it was the frame of `c`
  have hframe : ∀ c' f, B.calls.get? c' = some f →
      (c' ≠ c ∧ B'.calls.get? c' = some f) ∨ (c' = c ∧ ∃ stage, f = { g with stage }) := by
    intro c' f hf
    by_cases hc : c' = c
    · subst hc
      exact .inr ⟨rfl, hk f hf⟩
    · exact .inl ⟨hc, by rw [hr.calls, OrderedMap.get?_set_of_ne _ _ hc, hf]⟩
  have hcleared : ∀ c' f, B.calls.get? c' = some f → Cleared Law B c' f →
      ∃ f', B'.calls.get? c' = some f' ∧ f'.impl = f.impl ∧ Cleared Law B' c' f' := by
    intro c' f hf hc
    rcases hframe c' f hf with ⟨_, hf'⟩ | ⟨rfl, stage, rfl⟩
    · exact ⟨f, hf', rfl, hc.onward hr.onward⟩
    · exact ⟨g, hself, rfl, Cleared.onward (f := g) hc hr.onward⟩
  refine ⟨?_, ?_, ?_, ?_⟩
  · intro c' f id callId hf hcompartment
    rw [hr.calls, OrderedMap.get?_set] at hf
    split_ifs at hf with hc
    · cases hf
      exact hr.housed id callId hcompartment
    · exact hr.onward.housed id (h.housed c' f id callId hf hcompartment)
  · intro c' f hf
    rw [hr.calls, OrderedMap.get?_set] at hf
    split_ifs at hf with hc
    · cases hf
      subst hc
      exact hr.staged
    · exact (h.staged c' f hf).onward hf hr.onward hnew
  · intro d hd
    rcases hr.accepted d hd with hd | ⟨rfl, hmsg⟩
    · obtain ⟨f, hf, hmsg⟩ := h.delivered d hd
      rcases hframe d.key f hf with ⟨_, hf'⟩ | ⟨hc, stage, rfl⟩
      · exact ⟨f, hf', hmsg.imp_right (And.imp_right (And.imp_right fun hc => hc.onward hr.onward))⟩
      · refine ⟨g, hc ▸ hself, hmsg.imp_right (And.imp_right (And.imp_right fun hcl => ?_))⟩
        exact Cleared.onward (f := g) hcl hr.onward
    · exact ⟨g, hself, hmsg⟩
  · intro n a hget
    rcases hr.attempts n a hget with ⟨a', hget', hid⟩ | ⟨himpl, hc⟩
    · obtain ⟨c', f, hf, himpl, hc⟩ := h.spawned n a' hget'
      obtain ⟨f', hf', himpl', hc'⟩ := hcleared c' f hf hc
      exact ⟨c', f', hf', (himpl'.trans himpl).trans hid, hc'⟩
    · exact ⟨c, g, hself, himpl, hc⟩

lemma Wired.newlyAttested (hW : R.Wired) (hok : R.Decides e)
    (hs : PortRouter.step manifests R e = some R') : NewlyAttested R R' := by
  intro c f p d r hf hstage hd hp hmsg hres
  rcases hW.arrived hs hres with hold | ⟨code, detail, report, rfl⟩ | ⟨id, c', pe, rfl, hpe, hr, htrace⟩
  · exact .inl hold
  · exact .inr (fun value hv => by cases hv)
  · obtain ⟨d', hd', hkey', hr', _⟩ := hW.sound.linked.pended c' pe hpe
    obtain rfl : d' = d := hW.sound.linked.resolve_inj hd' hd (hr'.trans (hr.trans hp.symm))
    have hkey : d'.key = c := by rw [Delivery.key, hmsg]; rfl
    obtain rfl : c' = c := hkey'.symm.trans hkey
    refine .inr (fun value hv => ?_)
    subst hv
    have hgate : R.AtGate c' d' := by
      refine ⟨?_, OrderedMap.has_of_get? hpe⟩
      rw [gatePromise, hf, Option.map_some, hstage, hp]
    exact (hok d' hd hgate).imp_right (fun ⟨hallow, hid⟩ => ⟨hallow, by rw [hid, hkey]; exact htrace⟩)

lemma reply_answered (B : PortRouter) (caller : Caller) (out : Outcome)
    (h : ∀ id callId, caller = .compartment id callId → B.compartments.has id = true) :
    Answered (B.reply caller out) caller out := by
  cases caller with
  | root => exact List.mem_append_right _ List.mem_cons_self
  | compartment id callId =>
    rintro r rfl
    simp only [PortRouter.reply, h id callId rfl, if_true]
    exact List.mem_cons_self

lemma reply_resolved (B : PortRouter) (caller : Caller) (out : Outcome) :
    (B.reply caller out).ports.resolved = B.ports.resolved := by
  rcases reply_shape B caller out with ⟨L, heq⟩ | ⟨id, callId, r, heq⟩
  · rw [heq]
  · rw [heq]
    rfl

lemma Gated.closed (h : Gated Law B) (hk : Known B c g)
    (hhoused : ∀ id callId, g.caller = .compartment id callId → B.compartments.has id = true)
    {out : Outcome} (hout : Cleared Law B c g ∨ IsError out) : Gated Law (B.close c g out) := by
  let S := B.setCall c { g with stage := .closed out }
  have ha : Aside S (S.reply g.caller out) := .reply S g.caller out
  have ho : Onward B (S.reply g.caller out) :=
    ⟨ha.onward.accepted, ha.onward.trace, ha.onward.replies, ha.onward.housed⟩
  apply h.reframed (g := { g with stage := .closed out }) hk
  refine ⟨ho, ha.calls, reply_resolved S g.caller out, ?_, ?_, ?_, ?_⟩
  · intro d hd
    exact .inl (ha.grows.accepted ▸ hd)
  · intro n a hget
    obtain ⟨a', ha', hid, _⟩ := ha.attempts n a hget
    exact .inl ⟨a', ha', hid⟩
  · intro id callId hcaller
    exact ha.housed id (hhoused id callId hcaller)
  · refine ⟨reply_answered S g.caller out hhoused, hout.imp_left (fun hc => ?_)⟩
    exact Cleared.onward (f := g) hc ho

lemma onward_accept (B : PortRouter) (target : String) (msg : DeliverMsg) (onChunk : Bool) :
    Onward B (B.accept target msg onChunk) := by
  refine ⟨?_, ?_, fun _ h => h, fun _ h => h⟩
  · intro d hd
    rw [accept_accepted]
    exact List.mem_append_left _ hd
  · intro w hw
    rcases Ports.accept_trace (P := B.ports) (B.routes.maxInflight target) target msg onChunk
      (B.routes.priorityOf msg.op) with hsame | ⟨d, _, hpost⟩
    · exact hsame.symm ▸ hw
    · exact hpost.symm ▸ List.mem_cons_of_mem _ hw

lemma accept_resolved (B : PortRouter) (target : String) (msg : DeliverMsg) (onChunk : Bool) :
    (B.accept target msg onChunk).ports.resolved = B.ports.resolved :=
  Ports.accept_resolved _ _ _ _ _

lemma Gated.executed (h : Gated Law B) (hk : Known B c g)
    (hhoused : ∀ id callId, g.caller = .compartment id callId → B.compartments.has id = true)
    (hclear : Cleared Law B c g) (hx : Executed B c g B') : Gated Law B' := by
  have hsame : Onward B B := ⟨fun _ h => h, fun _ h => h, fun _ h => h, fun _ h => h⟩
  cases hx with
  | failed code detail => exact h.closed hk hhoused (.inl hclear)
  | joined attempt =>
    apply h.reframed (g := { g with stage := .spawn attempt }) hk
    refine ⟨⟨hsame.accepted, hsame.trace, hsame.replies, hsame.housed⟩, rfl, rfl, ?_, ?_, hhoused, ?_⟩
    · exact fun d hd => .inl hd
    · exact fun n a hget => .inl ⟨a, hget, rfl⟩
    · exact Cleared.onward (f := g) hclear ⟨hsame.accepted, hsame.trace, hsame.replies, hsame.housed⟩
  | spawned d =>
    have ho : Onward B ((B.startAttempt g.impl d).setCall c
        { g with stage := .spawn B.spawner.attemptSeq }) :=
      ⟨hsame.accepted, hsame.trace, hsame.replies, hsame.housed⟩
    have hclear' := Cleared.onward (f := g) hclear ho
    apply h.reframed (g := { g with stage := .spawn B.spawner.attemptSeq }) hk
    refine ⟨ho, rfl, rfl, fun d hd => .inl hd, ?_, hhoused, hclear'⟩
    intro n a hget
    simp only [setCall, startAttempt, OrderedMap.get?_set] at hget
    split_ifs at hget
    · cases hget
      exact .inr ⟨rfl, hclear'⟩
    · exact .inl ⟨a, hget, rfl⟩
  | targeted hh =>
    have hacc := onward_accept B g.impl (targetMsg c g) g.onChunk
    have ho : Onward B ((B.accept g.impl (targetMsg c g) g.onChunk).setCall c
        { g with stage := .target B.ports.nextPromise }) :=
      ⟨hacc.accepted, hacc.trace, hacc.replies, hacc.housed⟩
    have hclear' := Cleared.onward (f := g) hclear ho
    apply h.reframed (g := { g with stage := .target B.ports.nextPromise }) hk
    refine ⟨ho, rfl, accept_resolved _ _ _ _, ?_, fun n a hget => .inl ⟨a, hget, rfl⟩, hhoused,
      hclear'⟩
    intro d hd
    have hd' : d ∈ (B.accept g.impl (targetMsg c g) g.onChunk).ports.accepted := hd
    rw [accept_accepted] at hd'
    rcases List.mem_append.mp hd' with hd | hd
    · exact .inl hd
    · rw [List.mem_singleton.mp hd]
      exact .inr ⟨rfl, .inr ⟨rfl, rfl, hclear'⟩⟩

/-- No result can be there for a promise that is still to be made. -/
lemma unresolved_next (hW : R.Wired) (r : PortResult) :
    (R.ports.nextPromise, r) ∉ R.ports.resolved := by
  intro hmem
  have hcount : 0 < R.ports.resolved.countP (fun e => e.1 = R.ports.nextPromise) :=
    List.countP_pos_iff.mpr ⟨_, hmem, by simp⟩
  have ht := hW.sound.conserved R.ports.nextPromise
  simp only [Ports.tally, Ports.nextPromise, lt_irrefl, if_false] at ht hcount
  omega

lemma Gated.gated (h : Gated Law B) (hW : B.Wired) (hk : Known B c g)
    (hhoused : ∀ id callId, g.caller = .compartment id callId → B.compartments.has id = true)
    {lawId : String} (hlaw : Law c lawId) :
    Gated Law ((B.accept lawId (gateMsg g.principal g.op g.payload c) false).setCall c
      { g with stage := .gate B.ports.nextPromise }) := by
  let msg := gateMsg g.principal g.op g.payload c
  have hacc := onward_accept B lawId msg false
  have hnew : B.ports.newDelivery lawId msg false (B.routes.priorityOf msg.op) ∈
      (B.accept lawId msg false).ports.accepted := by
    rw [accept_accepted]
    exact List.mem_append_right _ List.mem_cons_self
  apply h.reframed (g := { g with stage := .gate B.ports.nextPromise }) hk
  refine ⟨⟨hacc.accepted, hacc.trace, hacc.replies, hacc.housed⟩, rfl, accept_resolved _ _ _ _, ?_,
    fun n a hget => .inl ⟨a, hget, rfl⟩, hhoused, ?_⟩
  · intro d hd
    have hd' : d ∈ (B.accept lawId msg false).ports.accepted := hd
    rw [accept_accepted] at hd'
    rcases List.mem_append.mp hd' with hd | hd
    · exact .inl hd
    · rw [List.mem_singleton.mp hd]
      exact .inr ⟨rfl, .inl ⟨rfl, hlaw⟩⟩
  · refine ⟨_, hnew, rfl, hlaw, rfl, fun r hr => ?_⟩
    have hr' : (B.ports.nextPromise, r) ∈ (B.accept lawId msg false).ports.resolved := hr
    rw [accept_resolved] at hr'
    exact absurd hr' (unresolved_next hW r)

lemma Gated.journaled (h : Gated Law R) (J : List (ℕ × List (String × JsValue))) :
    Gated Law { R with lawJournal := J } :=
  h.aside ⟨rfl, le_rfl, fun h => h, .refl _, fun _ a ha => ⟨a, ha, rfl, rfl⟩, fun _ h => h,
    fun _ h => h⟩ (.of_resolved rfl)

lemma Gated.resume (h : Gated Law R) (hr : R.resume c = some R') : Gated Law R' := by
  obtain ⟨f, hf, hcases⟩ := resume_cases R c hr
  have hstage := h.staged c f hf
  have hhoused := fun id callId => h.housed c f id callId hf
  have hk : Known R c f := by
    intro g hg
    rw [hf] at hg
    cases hg
    exact ⟨f.stage, rfl⟩
  rcases hcases with ⟨p, r, hs, hres, rfl⟩ | ⟨p, r, hs, hres, rfl⟩ |
    ⟨attempt, a, err, hs, _, _, ⟨_, rfl⟩ | ⟨text, _, rfl⟩⟩
  · rw [hs] at hstage
    obtain ⟨d, hd, _, hlaw, hmsg, hattested⟩ := hstage
    have hkey : d.key = c := by rw [Delivery.key, hmsg]; rfl
    obtain ⟨J, ⟨code, detail, report, heq⟩ | ⟨value, message, rfl, hnone, _⟩ |
      ⟨value, rfl, ⟨decision, hdecision, hdeny, hconsent⟩, heq⟩⟩ := afterGate_cases R c f r
    · rw [heq]
      exact (h.journaled J).closed hk hhoused (.inr ⟨code, detail, report, rfl⟩)
    · -- a value without a decision would not have been attested
      rcases hattested _ hres value rfl with (hbad | hbad) | ⟨hbad, _⟩ <;>
        simp [DecisionIs, hnone] at hbad
    · rcases hattested _ hres value rfl with (hbad | hbad) | ⟨hallow, hreceived⟩
      · simp [DecisionIs, hdecision, hdeny] at hbad
      · simp [DecisionIs, hdecision, hconsent] at hbad
      · rw [heq]
        have hclear : Cleared Law R c f := .inr ⟨d, hd, value, hlaw, hmsg, hallow, hkey ▸ hreceived⟩
        exact (h.journaled J).executed hk hhoused hclear (execute_executed _ c f)
  · rw [hs] at hstage
    exact h.closed hk hhoused (.inl hstage)
  · rw [hs] at hstage
    exact h.executed hk hhoused hstage (handOver_executed R c f)
  · rw [hs] at hstage
    exact h.closed hk hhoused (.inl hstage)

lemma Gated.step (hW : R.Wired) (h : Gated Law R)
    (hlaw : ∀ id, R.routes.opRoute.get? "law.check@1" = some id →
      Law (causation (R.callSeq + 1)) id)
    (hok : R.Decides e) (hs : PortRouter.step manifests R e = some R') : Gated Law R' := by
  cases CallStep.of_step hs with
  | aside ha => exact h.aside ha (hW.newlyAttested hok hs)
  | resumed c _ hr => exact h.resume hr
  | opened S caller principal op payload deadlineMs onChunk target hview _ _ hcaller =>
    let T : PortRouter := { S with callSeq := R.callSeq + 1 }
    let g := R.openFrame caller principal payload deadlineMs onChunk target
    have haside : Aside R T := hview.opening
    have hT : Gated Law T := h.aside haside (.of_resolved hview.resolved)
    have hTW : T.Wired := hW.of_aside haside
    have hk : Known T (causation (R.callSeq + 1)) g := by
      intro g' hg'
      have hnew := hW.unopened_next
      rw [← haside.calls, OrderedMap.has_of_get? hg'] at hnew
      cases hnew
    have hhoused : ∀ id callId, g.caller = .compartment id callId → T.compartments.has id = true :=
      fun id callId hc => haside.housed id (hcaller id callId hc)
    rcases runCall_cases T (causation (R.callSeq + 1)) g with
      ⟨hrisk, heq⟩ | ⟨_, code, detail, report, heq⟩ | ⟨_, lawId, hroute, _, heq⟩
    · rw [heq]
      exact hT.executed hk hhoused (.inl hrisk) (execute_executed T _ g)
    · rw [heq]
      exact hT.closed hk hhoused (.inr ⟨code, detail, report, rfl⟩)
    · rw [heq]
      have hroute' : R.routes.opRoute.get? "law.check@1" = some lawId := by
        rw [← hview.routes]
        exact hroute
      exact hT.gated hTW hk hhoused (hlaw lawId hroute')

end PortRouter

end VivimOmega.Host

import VivimOmega.Host.Admission
import VivimOmega.Host.Dispatch

/-! Delivery integrity: who can settle a delivery or hand it a chunk, as long as no compartment
answers for a delivery of another one. -/

namespace VivimOmega.Host

open Library Contracts

namespace PortRouter

variable {R R' S S' : PortRouter} {manifests : OrderedMap String PluginManifest} {e : Event}

/-- A return or chunk frame names an id with no pending delivery, or one in the in-flight set of
its sender. -/
def AnswersForItself (R : PortRouter) : Event → Prop
  | .message id (.ret c _) => R.ports.pending.has c = false ∨ c ∈ R.ports.inflight id
  | .message id (.chunk c _) => R.ports.pending.has c = false ∨ c ∈ R.ports.inflight id
  | _ => True

instance (R : PortRouter) : (e : Event) → Decidable (R.AnswersForItself e)
  | .message _ (.ret _ _) => inferInstanceAs (Decidable (_ ∨ _))
  | .message _ (.chunk _ _) => inferInstanceAs (Decidable (_ ∨ _))
  | .message _ .ready | .message _ (.call _) => instDecidableTrue
  | .register _ _ | .registerDormant _ _ | .callAsRoot _ _ _ _ | .crash _ _ => instDecidableTrue
  | .deadline _ | .readyTimeout _ | .checkedOut _ | .checkoutFailed _ _ => instDecidableTrue
  | .settleSpawn _ | .resume _ | .advance _ => instDecidableTrue

lemma AnswersForItself.keeps (h : R.AnswersForItself e) : R.KeepsToItsSlots e := by
  unfold KeepsToItsSlots
  split
  · exact h
  · trivial

/-- How a delivery can come to its result when `e` happens in state `R`. -/
inductive SettledBy (R : PortRouter) (e : Event) (d : Delivery) (r : PortResult) : Prop
  | returned : R.ports.Flying d → e = .message d.targetId (.ret d.key r) → SettledBy R e d r
  | deadline : R.ports.Flying d → e = .deadline d.resolve → d.due ≤ R.ports.now →
    r = Ports.deadlineExceeded d → SettledBy R e d r
  | expired : R.ports.Waits d → d.Expired R.ports.now → r = Ports.expiredInQueue d →
    SettledBy R e d r
  | felled (reason : String) : Fells R d.targetId e → r = .fail .degraded reason →
    SettledBy R e d r

lemma settledBy_answer {cap : String → ℕ} {P : Ports} {T : String} {k : CausationId} {p : Pending}
    (hP : P.Disciplined cap) (hqueue : ∀ T', P.queue T' = R.ports.queue T')
    (hnow : P.now = R.ports.now) (hp : P.pending.get? k = some p) {r r' : PortResult} {i : ℕ}
    (hself : ∀ d ∈ P.accepted, d.key = k → d.resolve = p.resolve → SettledBy R e d r)
    (hi : (i, r') ∈ ((((P.clearTimer p.timer).deletePending k).release T k).settle p.resolve
      r).resolved) :
    (i, r') ∈ P.resolved ∨ ∃ d ∈ P.accepted, d.resolve = i ∧ SettledBy R e d r' := by
  rcases Ports.answer_resolved hP.sound.linked hp hi with hold | hself' | ⟨d, hd, hexp, heq⟩
  · exact .inl hold
  · cases hself'
    obtain ⟨d, hd, hk, hr, _⟩ := hP.sound.linked.pended k p hp
    exact .inr ⟨d, hd, hr, hself d hd hk hr⟩
  · cases heq
    obtain ⟨hda, rfl⟩ := hP.sound.linked.queued T d hd
    have hwaits : R.ports.Waits d := by
      rw [Ports.Waits, ← hqueue]
      exact hd
    exact .inr ⟨d, hda, rfl, .expired hwaits (hnow ▸ hexp) rfl⟩

lemma Move.settles {cap : String → ℕ} {P Q : Ports} (hok : R.AnswersForItself e)
    (hm : Move R e P Q) (hP : P.Disciplined cap) {i : ℕ} {r : PortResult}
    (hi : (i, r) ∈ Q.resolved) :
    (i, r) ∈ P.resolved ∨ ∃ d ∈ P.accepted, d.resolve = i ∧ SettledBy R e d r := by
  cases hm with
  | post => exact .inl hi
  | receive => exact .inl hi
  | enrolled => exact .inl hi
  | advance => exact .inl hi
  | ret id c r' he =>
    have hrec := hP.receive id (.ret c r')
    unfold Ports.onReturn at hi
    cases hp : (R.ports.receive id (.ret c r')).pending.get? c with
    | none =>
      rw [hp] at hi
      exact .inl hi
    | some p =>
      rw [hp] at hi
      have hpend : R.ports.pending.get? c = some p := hp
      apply settledBy_answer hrec (fun _ => rfl) rfl hp ?_ hi
      intro d hd hk hr
      have hslot : c ∈ R.ports.inflight id := by
        subst he
        rcases hok with hno | hslot
        · rw [OrderedMap.has_of_get? hpend] at hno
          cases hno
        · exact hslot
      have htarget : d.targetId = id := hP.slotted.target hP.sound.linked hslot hpend hd hr
      subst hk htarget
      exact .returned ⟨p, hpend, hr.symm⟩ he
  | chunk id c chunk =>
    unfold Ports.onChunk at hi
    split at hi
    · exact .inl hi
    · split_ifs at hi <;> exact .inl hi
  | deadline d he hd hdue =>
    obtain ⟨p, hp, hr, heq⟩ := hP.sound.onDeadline_eq hd
    rw [heq] at hi
    apply settledBy_answer hP (fun _ => rfl) rfl hp ?_ hi
    intro d' hd' _ hr'
    have hda := (hP.sound.linked.armed _ d hd).1
    obtain rfl : d' = d := hP.sound.linked.resolve_inj hd' hda (hr'.trans hr)
    exact .deadline ⟨p, hp, hr⟩ he hdue rfl
  | fail _ id reason _ hfell =>
    rcases Ports.failInflight_resolved hP.sound.linked hP.slotted hi with hold | ⟨d, hd, hT, heq⟩
    · exact .inl hold
    · cases heq
      subst hT
      exact .inr ⟨d, hd, rfl, .felled reason hfell rfl⟩
  | accept _ target msg onChunk =>
    rw [Ports.accept_resolved] at hi
    exact .inl hi

lemma disciplined_answers (h : (system manifests).Reachable AnswersForItself R) :
    R.ports.Disciplined R.routes.maxInflight :=
  disciplined_reachable (h.mono (fun _ _ hok => hok.keeps))

lemma step_settles (h : (system manifests).Reachable AnswersForItself R)
    (hok : R.AnswersForItself e) (hs : PortRouter.step manifests R e = some R') {i : ℕ}
    {r : PortResult} (hi : (i, r) ∈ R'.ports.resolved) :
    (i, r) ∈ R.ports.resolved ∨ ∃ d ∈ R'.ports.accepted, d.resolve = i ∧ SettledBy R e d r := by
  let I : Ports → Prop := fun P => P.Disciplined R.routes.maxInflight ∧
    ∀ i r, (i, r) ∈ P.resolved →
      (i, r) ∈ R.ports.resolved ∨ ∃ d ∈ P.accepted, d.resolve = i ∧ SettledBy R e d r
  have hmove : ∀ P Q, Move R e P Q → I P → I Q := by
    rintro P Q hm ⟨hP, hold⟩
    refine ⟨disciplined_move hok.keeps (fun _ _ => rfl) hm hP, fun i r hi => ?_⟩
    rcases hm.settles hok hP hi with hi | ⟨d, hd, hdi, hby⟩
    · exact (hold i r hi).imp_right (fun ⟨d, hd, h⟩ => ⟨d, hm.accepted hd, h⟩)
    · exact .inr ⟨d, hm.accepted hd, hdi, hby⟩
  have hstart : I R.ports := ⟨disciplined_answers h, fun _ _ hi => .inl hi⟩
  exact (((Wired.reachable h).moves hs).invariant hmove hstart).2 i r hi

/-- A chunk is handed to the delivery it names, by the compartment that delivery went to. -/
def ChunkedBy (R : PortRouter) (e : Event) (chunks : List (ℕ × StreamChunk)) : Prop :=
  chunks = R.ports.chunks ∨ ∃ d ∈ R.ports.accepted, ∃ chunk, R.ports.Flying d ∧
    e = .message d.targetId (.chunk d.key chunk) ∧ chunks = R.ports.chunks ++ [(d.resolve, chunk)]

lemma step_message {id : String} {m : FromWorker}
    (hs : PortRouter.step manifests R (.message id m) = some R') :
    R' = (R.receive id m).onWorkerMessage id m := by
  simp only [PortRouter.step] at hs
  split_ifs at hs
  exact (Option.some.inj hs).symm

lemma step_chunks (h : (system manifests).Reachable AnswersForItself R)
    (hok : R.AnswersForItself e) (hs : PortRouter.step manifests R e = some R') :
    ChunkedBy R e R'.ports.chunks := by
  by_cases hchunk : ∃ id c chunk, e = .message id (.chunk c chunk)
  · obtain ⟨id, c, chunk, rfl⟩ := hchunk
    rw [step_message hs]
    have hports : ((R.receive id (.chunk c chunk)).onWorkerMessage id (.chunk c chunk)).ports =
        (R.ports.receive id (.chunk c chunk)).onChunk c chunk := rfl
    rw [hports, Ports.onChunk]
    have hD := disciplined_answers h
    cases hp : R.ports.pending.get? c with
    | none =>
      have hp' : (R.ports.receive id (.chunk c chunk)).pending.get? c = none := hp
      rw [hp']
      exact .inl rfl
    | some p =>
      have hp' : (R.ports.receive id (.chunk c chunk)).pending.get? c = some p := hp
      rw [hp']
      dsimp only
      split_ifs
      · have hslot : c ∈ R.ports.inflight id := by
          rcases hok with hno | hslot
          · rw [OrderedMap.has_of_get? hp] at hno
            cases hno
          · exact hslot
        obtain ⟨d, hd, hk, hr, _⟩ := hD.sound.linked.pended c p hp
        have htarget : d.targetId = id := hD.slotted.target hD.sound.linked hslot hp hd hr
        subst hk htarget
        exact .inr ⟨d, hd, chunk, ⟨p, hp, hr.symm⟩, rfl, by rw [hr]; rfl⟩
      · exact .inl rfl
  · refine .inl (((Wired.reachable h).moves hs).invariant (I := fun P => P.chunks = R.ports.chunks)
      (fun P Q hm hP => ?_) rfl)
    rcases hm.still with hstill | ⟨id, c, chunk, he, _⟩ | ⟨ms, _, rfl, rfl⟩
    · exact hstill.chunks.trans hP
    · exact absurd ⟨id, c, chunk, he⟩ hchunk
    · rfl

/-- The entry of a delivery in the pending table. -/
def Entry (P : Ports) (d : Delivery) (p : Pending) : Prop :=
  P.pending.get? d.key = some p ∧ p.resolve = d.resolve

/-- What belongs to `T` in the tables is the same in both. -/
structure Untouched (P Q : Ports) (T : String) : Prop where
  inflight : Q.inflight T = P.inflight T
  queue : Q.queue T = P.queue T
  pending : ∀ d ∈ P.accepted, d.targetId = T → ∀ p, Entry Q d p ↔ Entry P d p

lemma untouched_answer {cap : String → ℕ} {P : Ports} {id T : String} {k : CausationId} {p : Pending}
    (hP : P.Disciplined cap) (hp : P.pending.get? k = some p) (hslot : k ∈ P.inflight id)
    (hT : T ≠ id) (r : PortResult) :
    Untouched P ((((P.clearTimer p.timer).deletePending k).release id k).settle p.resolve r) T := by
  obtain ⟨hinf, hqueue⟩ := Ports.answer_other (T := id) hP.sound.linked hp hT r
  have hQ := hP.answer hp hslot r
  have hgrows := Ports.Grows.answer id k p.timer p.resolve r P
  have hkept : ∀ d ∈ P.accepted, d.targetId = T → ∀ p', Entry P d p' →
      Entry ((((P.clearTimer p.timer).deletePending k).release id k).settle p.resolve r) d p' := by
    rintro d hd hdT p' ⟨hp', hr'⟩
    have hne : d.key ≠ k := by
      rintro rfl
      rw [hp] at hp'
      obtain rfl := Option.some.inj hp'
      exact hT (hdT.symm.trans (hP.slotted.target hP.sound.linked hslot hp hd hr'.symm))
    exact ⟨Ports.answer_pending hP.sound.linked hp hne hp' r, hr'⟩
  refine ⟨hinf, hqueue, fun d hd hdT p' => ⟨fun hentry => ?_, hkept d hd hdT p'⟩⟩
  have hda := hgrows.accepted.symm ▸ hd
  have hflying : ∃ p', P.pending.get? d.key = some p' ∧ p'.resolve = d.resolve := by
    rcases hQ.sound.trichotomy hda with ⟨_, hn, _⟩ | ⟨hwaits, _, hsettled⟩ | ⟨_, hn, _⟩
    · exact absurd ⟨p', hentry⟩ hn
    · rcases hP.sound.trichotomy hd with ⟨hw, _⟩ | ⟨_, hf, _⟩ | ⟨_, _, ⟨r', hs⟩⟩
      · rw [Ports.Waits, hdT] at hw hwaits
        exact absurd (hqueue.symm ▸ hw) hwaits
      · exact hf
      · exact absurd ⟨r', hgrows.resolved _ hs⟩ hsettled
    · exact absurd ⟨p', hentry⟩ hn
  obtain ⟨p₀, hp₀⟩ := hflying
  have hsame := (hkept d hd hdT p₀ hp₀).1.symm.trans hentry.1
  rw [← Option.some.inj hsame]
  exact hp₀

/-- The event is a return or a chunk frame of `id`. -/
def Frame (id : String) (e : Event) : Prop :=
  (∃ c r, e = .message id (.ret c r)) ∨ ∃ c chunk, e = .message id (.chunk c chunk)

lemma step_untouched (h : (system manifests).Reachable AnswersForItself R)
    (hok : R.AnswersForItself e) (hs : PortRouter.step manifests R e = some R') {id : String}
    (he : Frame id e) {T : String} (hT : T ≠ id) : Untouched R.ports R'.ports T := by
  have hD := disciplined_answers h
  have hsame : ∀ {P : Ports}, P.inflightByCompartment = R.ports.inflightByCompartment →
      P.waiting = R.ports.waiting → P.pending = R.ports.pending → Untouched R.ports P T := by
    intro P hi hw hp
    refine ⟨by simp only [Ports.inflight, hi], by simp only [Ports.queue, hw], ?_⟩
    intro d _ _ p
    rw [Entry, Entry, hp]
  rcases he with ⟨c, r, rfl⟩ | ⟨c, chunk, rfl⟩
  · rw [step_message hs]
    have hports : ((R.receive id (.ret c r)).onWorkerMessage id (.ret c r)).ports =
        (R.ports.receive id (.ret c r)).onReturn id c r := rfl
    rw [hports, Ports.onReturn]
    cases hp : R.ports.pending.get? c with
    | none =>
      have hp' : (R.ports.receive id (.ret c r)).pending.get? c = none := hp
      rw [hp']
      exact hsame rfl rfl rfl
    | some p =>
      have hp' : (R.ports.receive id (.ret c r)).pending.get? c = some p := hp
      rw [hp']
      have hslot : c ∈ R.ports.inflight id := by
        rcases hok with hno | hslot
        · rw [OrderedMap.has_of_get? hp] at hno
          cases hno
        · exact hslot
      have huntouched := untouched_answer (hD.receive id (.ret c r)) hp' hslot hT r
      exact ⟨huntouched.inflight, huntouched.queue, huntouched.pending⟩
  · rw [step_message hs]
    have hports : ((R.receive id (.chunk c chunk)).onWorkerMessage id (.chunk c chunk)).ports =
        (R.ports.receive id (.chunk c chunk)).onChunk c chunk := rfl
    rw [hports, Ports.onChunk]
    split
    · exact hsame rfl rfl rfl
    · split_ifs
      · exact hsame rfl rfl rfl
      · exact hsame rfl rfl rfl

/-- One step as far as deliveries are concerned: results and chunks come from the target, a deadline
or the end of the target, frames leave what belongs to others alone, and a gate delivery goes to the
routed law. -/
structure Intact (R : PortRouter) (e : Event) (R' : PortRouter) : Prop where
  settled : ∀ i r, (i, r) ∈ R'.ports.resolved → (i, r) ∈ R.ports.resolved ∨
    ∃ d ∈ R'.ports.accepted, d.resolve = i ∧ SettledBy R e d r
  chunked : ChunkedBy R e R'.ports.chunks
  untouched : ∀ id, Frame id e → ∀ T, T ≠ id → Untouched R.ports R'.ports T
  gated : ∀ c f p, R.calls.has c = false → R'.calls.get? c = some f → f.stage = .gate p →
    ∃ d ∈ R'.ports.accepted, d.resolve = p ∧
      R.routes.opRoute.get? "law.check@1" = some d.targetId ∧
      d.msg = gateMsg f.principal f.op f.payload c

theorem delivery_integrity (manifests : OrderedMap String PluginManifest) (R R' : PortRouter)
    (e : Event) (h : (system manifests).Reachable AnswersForItself R) (hok : R.AnswersForItself e)
    (hs : PortRouter.step manifests R e = some R') : Intact R e R' :=
  ⟨fun _ _ hi => step_settles h hok hs hi, step_chunks h hok hs,
    fun _ he _ hT => step_untouched h hok hs he hT,
    fun _ _ _ hnew hf hstage => (CallStep.of_step hs).gated hnew hf hstage⟩

theorem delivery_integrity_answered :
    ∃ R R', R'.ports.resolved.length = 1 ∧
      Intact R (Sample.answer "vivim.law" "c_1" (Sample.decision "allow")) R' := by
  have hbefore : ((system (Sample.manifests none none)).exec AnswersForItself Sample.start
      (Sample.boot ++ [Sample.put])).map (fun _ => true) = some true := by decide
  have hafter : ((system (Sample.manifests none none)).exec AnswersForItself Sample.start
      ((Sample.boot ++ [Sample.put]) ++
        [Sample.answer "vivim.law" "c_1" (Sample.decision "allow")])).map
      (fun R => decide (R.ports.resolved.length = 1)) = some true := by decide
  obtain ⟨R, R', hR, _, hok, hs, hresolved⟩ :=
    System.exec_step (Sample.start_init _) hbefore hafter
  exact ⟨R, R', of_decide_eq_true hresolved, delivery_integrity _ R R' _ hR hok hs⟩

/-- The note store answers the gate delivery of a call to itself. -/
theorem delivery_integrity_forged :
    ¬ ∀ (manifests : OrderedMap String PluginManifest) (R R' : PortRouter) (e : Event),
      (system manifests).Reachable System.free R → PortRouter.step manifests R e = some R' →
        Intact R e R' := by
  intro hclaim
  have hbefore : ((system (Sample.manifests none none)).exec System.free Sample.start
      (Sample.boot ++ [Sample.put])).map (fun R => decide (R.ports.resolved.length = 0 ∧
        (R.ports.queue "vivim.law").length = 0)) = some true := by decide
  have hafter : ((system (Sample.manifests none none)).exec System.free Sample.start
      ((Sample.boot ++ [Sample.put]) ++
        [Sample.answer "notes" "c_1" (Sample.decision "allow")])).map
      (fun R => decide (R.ports.resolved.length = 1 ∧
        ∀ d ∈ R.ports.accepted, d.targetId = "vivim.law")) = some true := by decide
  obtain ⟨R, R', hR, hnone, _, hs, hone⟩ := System.exec_step (Sample.start_init _) hbefore hafter
  obtain ⟨hempty, hqueue⟩ := of_decide_eq_true hnone
  obtain ⟨hsettled, htargets⟩ := of_decide_eq_true hone
  obtain ⟨x, hx⟩ := List.length_eq_one_iff.mp hsettled
  have hmem : (x.1, x.2) ∈ R'.ports.resolved := by simp [hx]
  have hintact : Intact R (Sample.answer "notes" "c_1" (Sample.decision "allow")) R' :=
    hclaim _ R R' _ hR hs
  rcases hintact.settled x.1 x.2 hmem with hold | ⟨d, hd, _, hby⟩
  · rw [List.length_eq_zero_iff.mp hempty] at hold
    cases hold
  · have htarget := htargets d hd
    cases hby with
    | returned _ he =>
      rw [htarget] at he
      exact absurd he (by simp [Sample.answer])
    | deadline _ he => cases he
    | expired hwaits =>
      rw [Ports.Waits, htarget, List.length_eq_zero_iff.mp hqueue] at hwaits
      cases hwaits
    | felled reason hfell => cases hfell

end PortRouter

end VivimOmega.Host

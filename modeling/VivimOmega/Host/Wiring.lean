import VivimOmega.Host.Dispatch

/-! Calls and deliveries: every delivery belongs to a call, and one that is not settled is what its
call awaits. This is what makes a causation id free again when a call goes on. -/

namespace VivimOmega.Host

open Library Contracts

namespace PortRouter

lemma causation_injective : Function.Injective causation :=
  (Text.append_right_injective "c_").comp Text.repr_injective

lemma causation_ne_empty (n : ℕ) : causation n ≠ "" := by
  intro h
  have hlist := congrArg String.toList h
  simp [causation] at hlist

/-- The ids handed out so far. -/
def Minted (R : PortRouter) (c : CausationId) : Prop := ∃ n, n < R.callSeq ∧ c = causation (n + 1)

structure Wired (R : PortRouter) : Prop where
  sound : R.ports.Sound
  framed : ∀ d ∈ R.ports.accepted, R.calls.has d.key = true
  awaited : ∀ d ∈ R.ports.accepted, ¬ R.ports.Settled d →
    ∃ f, R.calls.get? d.key = some f ∧ f.stage.awaits = some d.resolve
  minted : ∀ c, R.calls.has c = true → R.Minted c
  housed : ∀ d ∈ R.ports.accepted, R.compartments.has d.targetId = true

namespace Wired

variable {R R' : PortRouter} {c : CausationId} {f : CallFrame}

lemma of_aside (h : R.Wired) (ha : Aside R R') : R'.Wired := by
  refine ⟨ha.sound h.sound, ?_, ?_, ?_, ?_⟩
  · intro d hd
    rw [ha.calls]
    exact h.framed d (ha.grows.accepted ▸ hd)
  · intro d hd hn
    rw [ha.calls]
    apply h.awaited d (ha.grows.accepted ▸ hd)
    rintro ⟨r, hr⟩
    exact hn ⟨r, ha.grows.resolved _ hr⟩
  · intro c hc
    rw [ha.calls] at hc
    obtain ⟨n, hn, rfl⟩ := h.minted c hc
    exact ⟨n, hn.trans_le ha.callSeq, rfl⟩
  · intro d hd
    exact ha.housed _ (h.housed d (ha.grows.accepted ▸ hd))

lemma fresh (journaling : Bool) (kernel : Option Kernel) (onDemandSpawn : Bool) :
    (PortRouter.fresh journaling kernel onDemandSpawn).Wired := by
  refine ⟨Ports.Sound.empty, ?_, ?_, ?_, ?_⟩
  · simp [PortRouter.fresh]
  · simp [PortRouter.fresh]
  · intro c hc
    simp [PortRouter.fresh, OrderedMap.has] at hc
  · simp [PortRouter.fresh]

lemma keyed_unopened (h : R.Wired) (hc : R.calls.has c = false) : R.ports.keyed c = 0 := by
  apply h.sound.keyed_eq_zero
  rintro d hd rfl
  rw [h.framed d hd] at hc
  cases hc

lemma unopened_next (h : R.Wired) : R.calls.has (causation (R.callSeq + 1)) = false := by
  by_contra hne
  obtain ⟨n, hn, heq⟩ := h.minted _ (by simpa using hne)
  have := causation_injective heq
  omega

/-- A call that awaits nothing unsettled has no live delivery. -/
lemma keyed_resumed (h : R.Wired) (hf : R.calls.get? c = some f)
    (hs : ∀ p, f.stage.awaits = some p → ∃ r, (p, r) ∈ R.ports.resolved) :
    R.ports.keyed c = 0 := by
  apply h.sound.keyed_eq_zero
  rintro d hd rfl
  by_contra hn
  obtain ⟨f', hf', ha⟩ := h.awaited d hd hn
  rw [hf] at hf'
  obtain rfl := Option.some.inj hf'
  exact hn (hs _ ha)

lemma setCall (h : R.Wired) (hm : R.Minted c) (hfree : R.ports.keyed c = 0) :
    (R.setCall c f).Wired := by
  refine ⟨h.sound, ?_, ?_, ?_, h.housed⟩
  · intro d hd
    have hold := h.framed d hd
    simp [PortRouter.setCall, hold]
  · intro d hd hn
    have hne : d.key ≠ c := by
      intro hdc
      exact hn (h.sound.settled_of_keyed hd (hdc ▸ hfree))
    obtain ⟨f', hf', ha⟩ := h.awaited d hd hn
    exact ⟨f', by rw [PortRouter.setCall, OrderedMap.get?_set_of_ne _ _ hne, hf'], ha⟩
  · intro c' hc'
    simp only [PortRouter.setCall, OrderedMap.has_set, Bool.or_eq_true, decide_eq_true_eq] at hc'
    rcases hc' with rfl | hc'
    · exact hm
    · exact h.minted c' hc'

/-- A delivery is accepted for a call, and the call parked on its promise. -/
lemma accept (h : R.Wired) {target : String} {msg : DeliverMsg} {oc : Bool}
    (hkey : msg.causationId = c) (hm : R.Minted c) (hfree : R.ports.keyed c = 0)
    (hhas : R.compartments.has target = true)
    (hawaits : f.stage.awaits = some R.ports.nextPromise) :
    ((R.accept target msg oc).setCall c f).Wired := by
  have hne : msg.causationId ≠ "" := by
    obtain ⟨n, _, hn⟩ := hm
    rw [hkey, hn]
    exact causation_ne_empty _
  let d₀ := R.ports.newDelivery target msg oc (R.routes.priorityOf msg.op)
  have hacc : ((R.accept target msg oc).setCall c f).ports.accepted = R.ports.accepted ++ [d₀] :=
    Ports.accepted_accept _ _ _ _ _
  have hkey₀ : d₀.key = c := hkey
  have hres : ∀ e ∈ R.ports.resolved, e ∈ ((R.accept target msg oc).setCall c f).ports.resolved :=
    Ports.resolved_accept _ _ _ _ _
  refine ⟨h.sound.accept _ target msg oc _ (hkey ▸ hfree) hne, ?_, ?_, ?_, ?_⟩
  · intro d hd
    rcases List.mem_append.mp (hacc ▸ hd) with hd | hd
    · have hold := h.framed d hd
      simp [PortRouter.setCall, PortRouter.accept, hold]
    · rw [List.mem_singleton.mp hd]
      simp [PortRouter.setCall, hkey₀]
  · intro d hd hn
    rcases List.mem_append.mp (hacc ▸ hd) with hd | hd
    · have hn' : ¬ R.ports.Settled d := by
        rintro ⟨r, hr⟩
        exact hn ⟨r, hres _ hr⟩
      have hdc : d.key ≠ c := by
        intro hdc
        exact hn' (h.sound.settled_of_keyed hd (hdc ▸ hfree))
      obtain ⟨f', hf', ha⟩ := h.awaited d hd hn'
      exact ⟨f', by rw [PortRouter.setCall, OrderedMap.get?_set_of_ne _ _ hdc]; exact hf', ha⟩
    · rw [List.mem_singleton.mp hd]
      exact ⟨f, by simp [PortRouter.setCall, hkey₀], hawaits⟩
  · intro c' hc'
    simp only [PortRouter.setCall, OrderedMap.has_set, Bool.or_eq_true, decide_eq_true_eq] at hc'
    rcases hc' with rfl | hc'
    · exact hm
    · exact h.minted c' hc'
  · intro d hd
    rcases List.mem_append.mp (hacc ▸ hd) with hd | hd
    · exact h.housed d hd
    · rw [List.mem_singleton.mp hd]
      exact hhas

lemma executed (h : R.Wired) (hm : R.Minted c) (hfree : R.ports.keyed c = 0)
    (hp : Executed R c f R') : R'.Wired := by
  cases hp with
  | failed => exact (h.setCall hm hfree).of_aside (.reply _ _ _)
  | joined attempt => exact h.setCall hm hfree
  | spawned d =>
    have hstart : (R.startAttempt f.impl d).Wired :=
      ⟨h.sound, h.framed, h.awaited, h.minted, h.housed⟩
    exact hstart.setCall hm hfree
  | targeted hh hget =>
    exact h.accept rfl hm hfree (OrderedMap.has_of_get? hget) rfl

lemma progress (h : R.Wired) (hm : R.Minted c) (hfree : R.ports.keyed c = 0)
    (hp : Progress R c f R') : R'.Wired := by
  cases hp with
  | closed out => exact (h.setCall hm hfree).of_aside (.reply _ _ _)
  | gated lawId _ hhas => exact h.accept rfl hm hfree hhas rfl
  | executed hx => exact h.executed hm hfree hx

lemma resume (h : R.Wired) (hr : R.resume c = some R') : R'.Wired := by
  obtain ⟨f, hf, hcases⟩ := resume_cases R c hr
  have hm : R.Minted c := h.minted c (OrderedMap.has_of_get? hf)
  rcases hcases with ⟨p, r, hstage, hres, rfl⟩ | ⟨p, r, hstage, hres, rfl⟩ |
    ⟨attempt, a, err, hstage, _, _, hrest⟩
  · have hfree := h.keyed_resumed hf (fun p' hp' => by
      rw [hstage] at hp'
      cases hp'
      exact ⟨r, hres⟩)
    obtain ⟨J, hp⟩ := afterGate_progress R c f r
    have hJ : ({ R with lawJournal := J } : PortRouter).Wired :=
      ⟨h.sound, h.framed, h.awaited, h.minted, h.housed⟩
    exact hJ.progress hm hfree hp
  · have hfree := h.keyed_resumed hf (fun p' hp' => by
      rw [hstage] at hp'
      cases hp'
      exact ⟨r, hres⟩)
    exact h.progress hm hfree (.closed _)
  · have hfree := h.keyed_resumed hf (fun p' hp' => by
      rw [hstage] at hp'
      cases hp')
    rcases hrest with ⟨_, rfl⟩ | ⟨text, _, rfl⟩
    · exact h.executed hm hfree (handOver_executed R c f)
    · exact h.progress hm hfree (.closed _)

lemma step {manifests : OrderedMap String PluginManifest} {e : Event} (h : R.Wired)
    (hs : PortRouter.step manifests R e = some R') : R'.Wired := by
  cases CallStep.of_step hs with
  | aside ha => exact h.of_aside ha
  | opened S caller principal op payload deadlineMs onChunk target hview =>
    let T : PortRouter := { S with callSeq := R.callSeq + 1 }
    have hT : T.Wired := h.of_aside hview.opening
    have hnew : T.calls.has (causation (R.callSeq + 1)) = false := by
      rw [hview.opening.calls]
      exact h.unopened_next
    exact hT.progress ⟨R.callSeq, Nat.lt_succ_self _, rfl⟩ (hT.keyed_unopened hnew)
      (runCall_progress _ _ _)
  | resumed c _ hr => exact h.resume hr

lemma reachable {manifests : OrderedMap String PluginManifest} {ok : PortRouter → Event → Prop}
    (h : (system manifests).Reachable ok R) : R.Wired := by
  apply h.invariant
  · rintro R ⟨journaling, kernel, onDemandSpawn, rfl⟩
    exact fresh _ _ _
  · intro R e R' _ hR _ hstep
    exact hR.step hstep

end Wired

end PortRouter

end VivimOmega.Host

import VivimOmega.Host.Turns

/-! Admission control over whole runs, as long as no compartment answers for a slot it does not
hold. -/

namespace VivimOmega.Host

open Library Contracts

namespace PortRouter

variable {R R' S S' : PortRouter} {manifests : OrderedMap String PluginManifest} {e : Event}

/-- A return frame names an id with no pending delivery, or one in the in-flight set of its
sender. -/
def KeepsToItsSlots (R : PortRouter) : Event → Prop
  | .message id (.ret c _) => R.ports.pending.has c = false ∨ c ∈ R.ports.inflight id
  | _ => True

instance (R : PortRouter) (e : Event) : Decidable (R.KeepsToItsSlots e) := by
  unfold KeepsToItsSlots
  split
  · exact inferInstanceAs (Decidable (_ ∨ _))
  · exact inferInstanceAs (Decidable True)

lemma disciplined_move {cap : String → ℕ} {P Q : Ports} (hok : R.KeepsToItsSlots e)
    (hcap : ∀ id, R.compartments.has id = true → R.routes.maxInflight id = cap id)
    (hm : Move R e P Q) (hP : P.Disciplined cap) : Q.Disciplined cap := by
  cases hm with
  | post _ id m _ => exact hP.post id m
  | receive _ id m _ => exact hP.receive id m
  | enrolled _ id =>
    exact hP.of_tables (hP.sound.of_tables rfl rfl rfl rfl rfl rfl) rfl rfl rfl rfl
  | ret id c r he =>
    subst he
    apply (hP.receive id (.ret c r)).onReturn
    rcases hok with hno | hmem
    · exact .inl ((OrderedMap.has_eq_false _ _).mp hno)
    · exact .inr hmem
  | chunk id c chunk _ => exact (hP.receive id (.chunk c chunk)).onChunk c chunk
  | deadline d _ hd _ => exact hP.onDeadline hd
  | fail _ id reason _ _ => exact hP.failInflight id reason
  | accept _ target msg onChunk hhas hfree hkey =>
    rw [hcap target hhas]
    exact hP.accept target msg onChunk _ hfree hkey
  | advance ms _ => exact hP.advance ms

lemma Verified.maxInflight_eq (h : S.Verified manifests) (h' : S'.Verified manifests) {id : String}
    (hid : S.routes.manifests.has id = true) (hid' : S'.routes.manifests.has id = true) :
    S.routes.maxInflight id = S'.routes.maxInflight id := by
  obtain ⟨m, hm⟩ := (OrderedMap.has_iff _ _).mp hid
  obtain ⟨m', hm'⟩ := (OrderedMap.has_iff _ _).mp hid'
  have hsame : some m = some m' := by rw [← h.manifest id m hm, h'.manifest id m' hm']
  rw [Routes.maxInflight, Routes.maxInflight, hm, hm', hsame]

/-- What holds between the turns of a step that keeps to its slots. -/
structure Governed (manifests : OrderedMap String PluginManifest) (R S : PortRouter) : Prop where
  verified : S.Verified manifests
  listed : ∀ id, R.routes.manifests.has id = true → S.routes.manifests.has id = true
  disciplined : S.ports.Disciplined S.routes.maxInflight

lemma Governed.turn (hW : R.Wired) (hV : R.Verified manifests) (hok : R.KeepsToItsSlots e)
    (h : Governed manifests R S) (ht : Turn manifests R e S S') : Governed manifests R S' := by
  have hcap : ∀ id, R.compartments.has id = true →
      R.routes.maxInflight id = S.routes.maxInflight id := by
    intro id hid
    have hlisted := hV.listed id hid
    exact hV.maxInflight_eq h.verified hlisted (h.listed id hlisted)
  have htables : S'.ports.Disciplined S.routes.maxInflight :=
    ht.moves.invariant (fun P Q hm hP => disciplined_move hok hcap hm hP) h.disciplined
  have hverified : S'.Verified manifests := h.verified.turn ht
  rcases ht.registry with ⟨hsame, _⟩ | ⟨entry, m, tokens, henrol⟩
  · refine ⟨hverified, fun id hid => ?_, ?_⟩
    · rw [hsame]
      exact h.listed id hid
    · have heq : S'.routes.maxInflight = S.routes.maxInflight := by
        funext id
        rw [Routes.maxInflight, Routes.maxInflight, hsame]
      rw [heq]
      exact htables
  · obtain rfl := henrol.first
    have hgrow : ∀ T, S.routes.manifests.has T = true → S'.routes.manifests.has T = true := by
      intro T hT
      rw [henrol.routes, Routes.enrol_manifests, OrderedMap.has_set, hT, Bool.or_true]
    refine ⟨hverified, hgrow, htables.recap fun d hd => ?_⟩
    have hT := hV.listed _ (hW.housed d (henrol.accepted ▸ hd))
    exact hverified.maxInflight_eq hV (hgrow _ hT) hT

lemma disciplined_reachable (h : (system manifests).Reachable KeepsToItsSlots R) :
    R.ports.Disciplined R.routes.maxInflight := by
  apply h.invariant
  · rintro R ⟨journaling, kernel, onDemandSpawn, rfl⟩
    exact Ports.Disciplined.empty
  · intro R e R' hR hP hok hs
    have hW := Wired.reachable hR
    have hV := Verified.reachable hR
    have hinit : Governed manifests R R := ⟨hV, fun _ hid => hid, hP⟩
    exact ((hW.turns hs).invariant (fun _ _ ht hT => hT.turn hW hV hok ht) hinit).disciplined

/-- Where a delivery can be: in its queue, in flight in a slot of its target, or settled. It waits
in one place at most, and its promise is settled once. -/
inductive Placed (P : Ports) (d : Delivery) : Prop
  | waiting : (P.queue d.targetId).countP (fun e => e.resolve = d.resolve) = 1 →
    ¬ P.Flying d → ¬ P.Settled d → Placed P d
  | inFlight : ¬ P.Waits d → P.Flying d → d.key ∈ P.inflight d.targetId → ¬ P.Settled d →
    Placed P d
  | settled : ¬ P.Waits d → ¬ P.Flying d → P.resolved.countP (fun e => e.1 = d.resolve) = 1 →
    Placed P d

lemma placed_of_disciplined {cap : String → ℕ} {P : Ports} (h : P.Disciplined cap) {d : Delivery}
    (hd : d ∈ P.accepted) : Placed P d := by
  have htally := h.sound.tally_accepted hd
  unfold Ports.tally at htally
  rcases h.sound.trichotomy hd with ⟨hw, hf, hs⟩ | ⟨hw, hf, hs⟩ | ⟨hw, hf, hs⟩
  · have hpos : 0 < (P.queue d.targetId).countP (fun e => e.resolve = d.resolve) :=
      List.countP_pos_iff.mpr ⟨d, hw, by simp⟩
    have hle := Ports.countP_queue_le (P := P) (T := d.targetId) (fun e => e.resolve = d.resolve)
    exact .waiting (by omega) hf hs
  · obtain ⟨p, hp, hr⟩ := hf
    exact .inFlight hw ⟨p, hp, hr⟩ (h.slotted.mem_of_pending hd hp hr) hs
  · have hpos := Ports.Sound.count_settled hs
    exact .settled hw hf (by omega)

/-- Admission control at one state: the caps, work conservation, the order of the queues, and one
place for each delivery. -/
structure Admission (R : PortRouter) : Prop where
  bounded : ∀ T, (R.ports.inflight T).length ≤ R.routes.maxInflight T
  conserving : ∀ T, R.ports.queue T ≠ [] →
    (R.ports.inflight T).length = R.routes.maxInflight T
  tiered : ∀ T, (R.ports.queue T).Pairwise Ports.Before
  slots : ∀ T k, k ∈ R.ports.inflight T ↔
    ∃ d ∈ R.ports.accepted, d.targetId = T ∧ d.key = k ∧ R.ports.Flying d
  placed : ∀ d ∈ R.ports.accepted, Placed R.ports d

theorem admission_control (manifests : OrderedMap String PluginManifest) (R : PortRouter)
    (h : (system manifests).Reachable KeepsToItsSlots R) : Admission R := by
  have hD := disciplined_reachable h
  exact ⟨hD.admitting.bounded, hD.admitting.conserving, hD.tiered, hD.slotted.slot_iff,
    fun d hd => placed_of_disciplined hD hd⟩

/-- Three calls of which the first is past the gate: one gate delivery is in flight, one waits. -/
def gateQueued : List Event :=
  Sample.boot ++
    [Sample.put, Sample.answer "vivim.law" "c_1" (Sample.decision "allow"), .resume "c_1",
      Sample.put, Sample.put]

theorem admission_control_gateQueued :
    ∃ R, (R.ports.queue "vivim.law").length = 1 ∧ Admission R := by
  have hrun : ((system (Sample.manifests (some 1) none)).exec KeepsToItsSlots Sample.start
      gateQueued).map (fun R => decide ((R.ports.queue "vivim.law").length = 1)) = some true := by
    decide
  obtain ⟨R, hR, hqueue⟩ := System.exec_spec (Sample.start_init _) hrun
  exact ⟨R, of_decide_eq_true hqueue, admission_control _ R hR⟩

/-! ### Answering twice for one delivery -/

/-- A return frame names a causation id that was delivered to its sender. -/
def ReturnsDelivered (R : PortRouter) : Event → Prop
  | .message id (.ret c _) => R.ports.deliveredTo id c = true
  | _ => True

instance (R : PortRouter) (e : Event) : Decidable (R.ReturnsDelivered e) := by
  unfold ReturnsDelivered
  split
  · exact inferInstanceAs (Decidable (_ = true))
  · exact inferInstanceAs (Decidable True)

/-- The law compartment answers for its gate delivery twice; the second answer settles the target
delivery of the same call and lets one more gate delivery in than the cap allows. -/
def answeredTwice : List Event :=
  Sample.boot ++
    [Sample.put, Sample.answer "vivim.law" "c_1" (Sample.decision "allow"), .resume "c_1",
      Sample.put, Sample.put, Sample.answer "vivim.law" "c_1" (Sample.decision "allow")]

theorem admission_control_answeredTwice :
    ¬ ∀ (manifests : OrderedMap String PluginManifest) (R : PortRouter),
      (∀ id m n, manifests.get? id = some m → m.maxConcurrentCalls = some n → 1 ≤ n) →
      (system manifests).Reachable ReturnsDelivered R → Admission R := by
  intro hclaim
  have hrun : ((system (Sample.manifests (some 1) none)).exec ReturnsDelivered Sample.start
      answeredTwice).map (fun R => decide (R.routes.maxInflight "vivim.law" <
        (R.ports.inflight "vivim.law").length)) = some true := by
    decide
  obtain ⟨R, hR, hover⟩ := System.exec_spec (Sample.start_init _) hrun
  have hcaps : ∀ id m n, (Sample.manifests (some 1) none).get? id = some m →
      m.maxConcurrentCalls = some n → 1 ≤ n := by
    intro id m n hm hn
    rcases Sample.manifests_cases hm with rfl | rfl
    · cases hn
      exact le_rfl
    · cases hn
  exact absurd (of_decide_eq_true hover) (not_lt.mpr ((hclaim _ R hcaps hR).bounded "vivim.law"))

end PortRouter

end VivimOmega.Host

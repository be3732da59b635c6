import VivimOmega.Host.Turns

/-! Deadlines over timed runs: timers fire when due, and a delivery that waits is covered by one in
flight whose deadline comes no later. -/

namespace VivimOmega.Host

open Library Contracts

namespace PortRouter

variable {R R' : PortRouter} {manifests : OrderedMap String PluginManifest} {e : Event}

/-- The clock does not pass the due time of an armed timer before it has fired. -/
def Punctual (R : PortRouter) : Event → Prop
  | .advance ms => ∀ x ∈ R.ports.timers.entries, R.ports.now + ms ≤ x.2.due
  | _ => True

/-- Time only passes while every waiting delivery with a deadline has one in flight at its target
with a deadline that comes no later. -/
def Covered (R : PortRouter) : Event → Prop
  | .advance _ => ∀ x ∈ R.ports.waiting.entries, ∀ d ∈ x.2, 0 < d.msg.deadlineMs →
    ∃ y ∈ R.ports.timers.entries, y.2.targetId = d.targetId ∧ y.2.due ≤ d.due
  | _ => True

def Timed (R : PortRouter) (e : Event) : Prop := R.Punctual e ∧ R.Covered e

instance (R : PortRouter) (e : Event) : Decidable (R.Punctual e) := by
  unfold Punctual
  split
  · exact inferInstanceAs (Decidable (∀ x ∈ R.ports.timers.entries, _))
  · exact inferInstanceAs (Decidable True)

instance (R : PortRouter) (e : Event) : Decidable (R.Covered e) := by
  unfold Covered
  split
  · exact inferInstanceAs (Decidable (∀ x ∈ R.ports.waiting.entries, ∀ d ∈ x.2, _ → _))
  · exact inferInstanceAs (Decidable True)

instance (R : PortRouter) (e : Event) : Decidable (R.Timed e) :=
  inferInstanceAs (Decidable (_ ∧ _))

/-- Whoever is late has been settled. -/
def InTime (P : Ports) : Prop :=
  ∀ d ∈ P.accepted, 0 < d.msg.deadlineMs → d.due < P.now → P.Settled d

/-- The timer of a delivery in flight is armed. -/
lemma armed_of_flying {P : Ports} (h : P.Sound) {d : Delivery} (hd : d ∈ P.accepted)
    (hdl : 0 < d.msg.deadlineMs) (hf : P.Flying d) : (d.resolve, d) ∈ P.timers.entries := by
  obtain ⟨p, hp, hr⟩ := hf
  obtain ⟨d', hd', _, hr', ht'⟩ := h.linked.pended d.key p hp
  obtain rfl : d' = d := h.linked.resolve_inj hd' hd (hr'.trans hr)
  have htimer : p.timer = some d'.resolve := by
    rw [← ht', Delivery.timer, if_pos hdl]
  obtain ⟨armed, harmed⟩ := Option.isSome_iff_exists.mp (h.linked.timed d'.key p _ hp htimer)
  obtain ⟨ha, hres, _⟩ := h.linked.armed _ armed harmed
  obtain rfl : armed = d' := h.linked.resolve_inj ha hd hres
  exact OrderedMap.mem_of_get? harmed

lemma mem_waiting {P : Ports} {d : Delivery} (h : P.Waits d) :
    ∃ x ∈ P.waiting.entries, d ∈ x.2 := by
  unfold Ports.Waits Ports.queue at h
  cases hq : P.waiting.get? d.targetId with
  | none =>
    rw [hq] at h
    cases h
  | some q =>
    rw [hq] at h
    exact ⟨_, OrderedMap.mem_of_get? hq, h⟩

/-- While time passes nobody becomes late: a delivery in flight by its own timer, a waiting one by
the timer that covers it. -/
lemma inTime_advance {ms : ℕ} (h : R.ports.Sound) (hok : R.Timed (.advance ms)) :
    InTime (R.ports.advance ms) := by
  intro d hd hdl hlate
  have hnow : d.due < R.ports.now + ms := hlate
  rcases h.trichotomy hd with ⟨hw, _⟩ | ⟨_, hf, _⟩ | ⟨_, _, hs⟩
  · obtain ⟨x, hx, hdx⟩ := mem_waiting hw
    obtain ⟨y, hy, _, hdue⟩ := hok.2 x hx d hdx hdl
    have hpunctual := hok.1 y hy
    omega
  · have hpunctual : R.ports.now + ms ≤ d.due := hok.1 _ (armed_of_flying h hd hdl hf)
    omega
  · exact hs

lemma inTime_still {P Q : Ports} (h : Ports.Still P Q) (hg : Ports.Grows P Q)
    (hT : InTime P) : InTime Q := by
  intro d hd hdl hlate
  rw [h.now] at hlate
  rw [hg.accepted] at hd
  obtain ⟨r, hr⟩ := hT d hd hdl hlate
  exact ⟨r, hg.resolved _ hr⟩

lemma inTime_move {P Q : Ports} (hR : R.ports.Sound) (hok : R.Timed e) (hm : Move R e P Q)
    (hT : InTime P) : InTime Q := by
  rcases hm.still with hstill | ⟨id, c, chunk, _, rfl, rfl⟩ | ⟨ms, rfl, rfl, rfl⟩
  · rcases hm.grows with hg | ⟨target, msg, onChunk, rfl⟩
    · exact inTime_still hstill hg hT
    · intro d hd hdl hlate
      rw [hstill.now] at hlate
      rw [Ports.accepted_accept] at hd
      rcases List.mem_append.mp hd with hd | hd
      · obtain ⟨r, hr⟩ := hT d hd hdl hlate
        exact ⟨r, Ports.resolved_accept _ _ _ _ _ _ hr⟩
      · -- the new delivery is accepted now, so it is not late yet
        rw [List.mem_singleton.mp hd] at hlate
        have hdue : P.now ≤ (P.newDelivery target msg onChunk (R.routes.priorityOf msg.op)).due :=
          Nat.le_add_right _ _
        omega
  · have hnow : ((R.ports.receive id (.chunk c chunk)).onChunk c chunk).now = R.ports.now := by
      unfold Ports.onChunk
      split
      · rfl
      · split_ifs <;> rfl
    have hg := Ports.Grows.onChunk c chunk (R.ports.receive id (.chunk c chunk))
    intro d hd hdl hlate
    rw [hnow] at hlate
    rw [hg.accepted] at hd
    obtain ⟨r, hr⟩ := hT d hd hdl hlate
    exact ⟨r, hg.resolved _ hr⟩
  · exact inTime_advance hR hok

theorem settled_by_deadline (manifests : OrderedMap String PluginManifest) (R : PortRouter)
    (h : (system manifests).Reachable Timed R) (d : Delivery) (hd : d ∈ R.ports.accepted)
    (hdl : 0 < d.msg.deadlineMs) (hlate : d.acceptedAt + d.msg.deadlineMs < R.ports.now) :
    R.ports.Settled d := by
  have hT : InTime R.ports := by
    apply h.invariant
    · rintro R ⟨journaling, kernel, onDemandSpawn, rfl⟩
      intro d hd
      cases hd
    · intro R e R' hR hT hok hs
      have hW := Wired.reachable hR
      exact (hW.moves hs).invariant (fun _ _ hm hP => inTime_move hW.sound hok hm hP) hT
  exact hT d hd hdl hlate

/-- A read of the note store with a deadline. -/
def getWithin (deadlineMs : ℕ) : Event := .callAsRoot "notes.get@1" .null deadlineMs false

/-- The second call waits for the slot of the first, which its own deadline frees in time. -/
theorem settled_by_deadline_queued :
    ∃ (R : PortRouter) (d : Delivery), d ∈ R.ports.accepted ∧ d.resolve = 1 ∧ R.ports.Settled d := by
  have hrun : ((system (Sample.manifests none (some 1))).exec Timed Sample.start
      (Sample.boot ++ [getWithin 10, getWithin 20, .advance 10, .deadline 0, .advance 10,
        .deadline 1, .advance 1])).map (fun R => R.ports.accepted.any (fun d =>
          decide (d.resolve = 1 ∧ 0 < d.msg.deadlineMs ∧
            d.acceptedAt + d.msg.deadlineMs < R.ports.now))) = some true := by
    decide
  obtain ⟨R, hR, hlate⟩ := System.exec_spec (Sample.start_init _) hrun
  obtain ⟨d, hd, hdec⟩ := List.any_eq_true.mp hlate
  obtain ⟨hone, hdl, hdue⟩ := of_decide_eq_true hdec
  exact ⟨R, d, hd, hone, settled_by_deadline _ R hR d hd hdl hdue⟩

/-- The second call waits behind one with a longer deadline. -/
theorem settled_by_deadline_blocked :
    ¬ ∀ (manifests : OrderedMap String PluginManifest) (R : PortRouter),
      (system manifests).Reachable Punctual R → ∀ d ∈ R.ports.accepted, 0 < d.msg.deadlineMs →
        d.acceptedAt + d.msg.deadlineMs < R.ports.now → R.ports.Settled d := by
  intro hclaim
  have hrun : ((system (Sample.manifests none (some 1))).exec Punctual Sample.start
      (Sample.boot ++ [getWithin 5000, getWithin 10, .advance 11])).map
        (fun R => decide (R.ports.resolved.length = 0) && R.ports.accepted.any (fun d =>
          decide (0 < d.msg.deadlineMs ∧ d.acceptedAt + d.msg.deadlineMs < R.ports.now))) =
            some true := by
    decide
  obtain ⟨R, hR, hlate⟩ := System.exec_spec (Sample.start_init _) hrun
  obtain ⟨hnone, hany⟩ := (Bool.and_eq_true _ _).mp hlate
  obtain ⟨d, hd, hdec⟩ := List.any_eq_true.mp hany
  obtain ⟨hdl, hdue⟩ := of_decide_eq_true hdec
  obtain ⟨r, hr⟩ := hclaim _ R hR d hd hdl hdue
  rw [List.length_eq_zero_iff.mp (of_decide_eq_true hnone)] at hr
  cases hr

end PortRouter

end VivimOmega.Host

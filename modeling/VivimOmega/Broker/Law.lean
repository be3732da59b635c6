import VivimOmega.Broker.Resume

/-! The lane law of the broker: what settles a call, and when no lane is lost. -/

namespace VivimOmega.Broker

open Library

variable {pools : Pools} {s t u : State} {l : ℕ}

lemma Core.handle (h : Core pools s) {e : Event} (he : handle pools s e = some u) : Core pools u := by
  cases e with
  | call req =>
    obtain rfl := Option.some.inj he
    exact h.call req
  | chunk l fs =>
    rw [Broker.handle] at he
    split_ifs at he
    obtain rfl := Option.some.inj he
    exact h.frames fs
  | exit l =>
    rw [Broker.handle] at he
    split_ifs at he
    obtain rfl := Option.some.inj he
    exact h.exit
  | startTimeout l =>
    rw [Broker.handle] at he
    split_ifs at he
    obtain rfl := Option.some.inj he
    exact h.startTimeout
  | deadline id =>
    rw [Broker.handle] at he
    split_ifs at he
    obtain rfl := Option.some.inj he
    exact h.deadline id
  | shutdown =>
    obtain rfl := Option.some.inj he
    exact h.leave (fun p => List.nil_sublist _) true

section Settling

/-- The call is resolved by this event: its own answer on its own lane, the failure of that lane, or its deadline. -/
def ResolvedBy (s : State) (id : ℕ) : Event → Settled → Prop
  | .chunk l fs, .returned l' i ok => l' = l ∧ i = id ∧ (s.jobs id).lane = l ∧ Frame.returned id ok ∈ fs
  | .chunk l fs, .failed l' .flooded => l' = l ∧ (s.jobs id).lane = l ∧ Frame.noise ∈ fs
  | .exit l, .failed l' .exited => l' = l ∧ (s.jobs id).lane = l
  | .startTimeout l, .failed l' .notReady => l' = l ∧ (s.jobs id).lane = l
  | .deadline i, .deadline => i = id
  | _, _ => False

/-- A call stays where it is, and what resolves it is as `how` says. -/
structure Kept (how : Settled → Prop) (j k : Job) : Prop where
  lane : k.lane = j.lane
  written : k.written = j.written
  resumed : k.resumed = j.resumed
  result : k.result = j.result ∨ j.result = none ∧ ∃ c, k.result = some c ∧ how c
  expired : k.expired = true → j.expired = true ∨ k.result ≠ none

def Settles (how : ℕ → Settled → Prop) (s u : State) : Prop :=
  ∀ id, id < s.nextId → Kept (how id) (s.jobs id) (u.jobs id)

lemma Kept.refl {how : Settled → Prop} (j : Job) : Kept how j j := ⟨rfl, rfl, rfl, Or.inl rfl, Or.inl⟩

lemma Kept.answered {how : Settled → Prop} {j k : Job} (h : Kept how j k) (hj : j.result ≠ none) : k.result ≠ none := by
  obtain hsame | ⟨hnone, _⟩ := h.result
  · rwa [hsame]
  · exact absurd hnone hj

lemma Kept.trans {how : Settled → Prop} {j k m : Job} (h : Kept how j k) (h' : Kept how k m) : Kept how j m where
  lane := h'.lane.trans h.lane
  written := h'.written.trans h.written
  resumed := h'.resumed.trans h.resumed
  result := by
    obtain hsame | ⟨hnone, c, hc, hhow⟩ := h'.result
    · rw [hsame]
      exact h.result
    · obtain hsame | ⟨_, d, hd, _⟩ := h.result
      · exact Or.inr ⟨hsame ▸ hnone, c, hc, hhow⟩
      · rw [hnone] at hd
        cases hd
  expired := fun hm => by
    obtain hk | hm := h'.expired hm
    · exact (h.expired hk).imp_right h'.answered
    · exact Or.inr hm

variable {how how' : ℕ → Settled → Prop}

lemma Settles.refl (s : State) : Settles how s s := fun _ _ => Kept.refl _

lemma Settles.trans (h : Settles how s t) (hnext : t.nextId = s.nextId) (h' : Settles how t u) : Settles how s u :=
  fun id hid => (h id hid).trans (h' id (hnext ▸ hid))

lemma Settles.mono (h : Settles how s u) (hmono : ∀ id c, id < s.nextId → how id c → how' id c) : Settles how' s u := by
  intro id hid
  obtain ⟨hlane, hwritten, hresumed, hresult, hexpired⟩ := h id hid
  exact ⟨hlane, hwritten, hresumed, hresult.imp_right fun ⟨hnone, c, hc, hhow⟩ =>
    ⟨hnone, c, hc, hmono id c hid hhow⟩, hexpired⟩

lemma kept_resolveJob {how : Settled → Prop} (j : Job) {c : Settled} (hc : how c) : Kept how j (State.resolveJob j c) := by
  rw [State.resolveJob]
  cases hr : j.result with
  | none => exact ⟨rfl, rfl, rfl, Or.inr ⟨hr, c, rfl, hc⟩, Or.inl⟩
  | some d => exact Kept.refl j

lemma settles_resolve (ids : List ℕ) (c : Settled) (hhow : ∀ id ∈ ids, how id c) : Settles how s (s.resolve ids c) := by
  intro id _
  simp only [State.resolve]
  split_ifs with hid
  · exact kept_resolveJob _ (hhow id hid)
  · exact Kept.refl _

lemma settles_pending (h : Core pools s) (failure : LaneFailure) :
    Settles (fun id c => c = .failed l failure ∧ (s.jobs id).lane = l) s (s.settlePending l failure) :=
  settles_resolve _ _ fun id hid => ⟨rfl, (h.pending l id hid).2⟩

lemma settles_frame (h : Core pools s) (f : Frame) :
    Settles (fun id c => ResolvedBy s id (.chunk l [f]) c) s (s.frame l f) := by
  cases f with
  | ready => exact Settles.refl s
  | noise =>
    have hflag : Core pools (s.setLane l { s.lanes l with malformed := (s.lanes l).malformed + 1 }) :=
      h.setLane rfl (fun _ hid => hid) (fun id hopen hlane hresult => hlane ▸ h.waiting id hopen hresult) Iff.rfl
        (h.exited l)
    rw [State.frame, State.flagMalformed]
    split_ifs
    · refine (settles_pending hflag (l := l) .flooded).mono fun id c _ hhow => ?_
      obtain ⟨rfl, hlane⟩ := hhow
      exact ⟨rfl, hlane, List.mem_singleton_self _⟩
    · exact Settles.refl s
  | returned id ok =>
    rw [State.frame]
    split_ifs with hid
    · refine settles_resolve (s := s) _ _ fun i hi => ?_
      obtain rfl := List.mem_singleton.mp hi
      exact ⟨rfl, rfl, (h.pending l i hid).2, List.mem_singleton_self _⟩
    · exact Settles.refl s

lemma frame_nextId (s : State) (l : ℕ) (f : Frame) : (s.frame l f).nextId = s.nextId := by
  cases f with
  | ready => rfl
  | noise =>
    rw [State.frame, State.flagMalformed]
    split_ifs <;> rfl
  | returned id ok =>
    rw [State.frame]
    split_ifs <;> rfl

lemma resolvedBy_mono {s s' : State} {id : ℕ} {fs fs' : List Frame} {c : Settled}
    (hlane : (s'.jobs id).lane = (s.jobs id).lane) (hsub : ∀ f ∈ fs, f ∈ fs') (h : ResolvedBy s id (.chunk l fs) c) :
    ResolvedBy s' id (.chunk l fs') c := by
  cases c with
  | returned l' i ok =>
    obtain ⟨hl, hi, hlane', hin⟩ := h
    exact ⟨hl, hi, hlane.trans hlane', hsub _ hin⟩
  | failed l' failure =>
    cases failure with
    | flooded =>
      obtain ⟨hl, hlane', hin⟩ := h
      exact ⟨hl, hlane.trans hlane', hsub _ hin⟩
    | _ => exact h.elim
  | deadline => exact h.elim

lemma settles_frames (h : Core pools s) (fs : List Frame) :
    Settles (fun id c => ResolvedBy s id (.chunk l fs) c) s (fs.foldl (State.frame l) s) := by
  induction fs generalizing s with
  | nil => exact Settles.refl s
  | cons f rest ih =>
    have hfirst := settles_frame (l := l) h f
    refine Settles.trans (hfirst.mono fun id c _ hhow => ?_) (frame_nextId s l f)
      ((ih (h.frame f)).mono fun id c hid hhow => ?_)
    · exact resolvedBy_mono rfl (fun g hg => List.mem_cons.mpr (Or.inl (List.mem_singleton.mp hg))) hhow
    · refine resolvedBy_mono (hfirst id ?_).lane.symm (fun g hg => List.mem_cons_of_mem _ hg) hhow
      rwa [frame_nextId] at hid

lemma settles_dispatch (s : State) (p : String) (l : ℕ) :
    Settles how s ((s.setLane l { s.lanes l with busy := true }).dispatch p l) := by
  intro id hid
  rw [dispatch_eq]
  dsimp only
  rw [Function.update_of_ne hid.ne]
  exact Kept.refl _

lemma settles_call (s : State) (req : ProcessCallRequest) : Settles how s (call pools s req) := by
  rw [Broker.call.eq_def]
  split
  · exact Settles.refl s
  · split
    · exact Settles.refl s
    · rename_i t l hcheckout
      obtain ⟨_, _, rfl⟩ | ⟨_, rfl, rfl⟩ := checkout_cases hcheckout
      · exact settles_dispatch s _ _
      · rw [spawnLane_eq]
        exact settles_dispatch (s.addLane _) _ _

lemma settles_handle (h : Core pools s) {e : Event} (he : handle pools s e = some u) :
    Settles (fun id c => ResolvedBy s id e c) s u := by
  cases e with
  | call req =>
    obtain rfl := Option.some.inj he
    exact settles_call s req
  | chunk l fs =>
    rw [Broker.handle] at he
    split_ifs at he
    obtain rfl := Option.some.inj he
    exact settles_frames h fs
  | exit l =>
    rw [Broker.handle] at he
    split_ifs at he
    obtain rfl := Option.some.inj he
    refine (settles_pending h (l := l) .exited).mono fun id c _ hhow => ?_
    obtain ⟨rfl, hlane⟩ := hhow
    exact ⟨rfl, hlane⟩
  | startTimeout l =>
    rw [Broker.handle] at he
    split_ifs at he
    obtain rfl := Option.some.inj he
    have hdisarmed : Core pools (s.setLane l { s.lanes l with armed := false }) :=
      h.setLane rfl (fun _ hid => hid) (fun id hopen hlane hresult => hlane ▸ h.waiting id hopen hresult) Iff.rfl
        (h.exited l)
    rw [State.startTimeout]
    split_ifs
    · exact Settles.refl s
    · refine (settles_pending hdisarmed (l := l) .notReady).mono fun id c _ hhow => ?_
      obtain ⟨rfl, hlane⟩ := hhow
      exact ⟨rfl, hlane⟩
  | deadline id =>
    rw [Broker.handle] at he
    split_ifs at he
    obtain rfl := Option.some.inj he
    intro i _
    by_cases hi : i = id
    · subst hi
      simp only [State.deadline, State.resolve, List.mem_singleton, if_true, Function.update_self, State.resolveJob]
      cases hr : (s.jobs i).result with
      | none => exact ⟨rfl, rfl, rfl, Or.inr ⟨hr, _, rfl, rfl⟩, fun _ => Or.inr (Option.some_ne_none _)⟩
      | some c => exact ⟨rfl, rfl, rfl, Or.inl (by simp [hr]), fun _ => Or.inr (by simp [hr])⟩
    · simp only [State.deadline, State.resolve, List.mem_singleton, hi, if_false, Function.update_of_ne hi]
      exact Kept.refl _
  | shutdown =>
    obtain rfl := Option.some.inj he
    exact Settles.refl s

end Settling

end VivimOmega.Broker
